import HookGuard.Console.Auth
import HookGuard.Lib.SlidingWindow

/- The limiter of logins and signups, over sequences of calls (`auth/ratelimit.py`).

   What a limiter stores is filtered when a key is asked for, and its idle keys are pruned.
   `Tracks` says what is left of that: of the grants ever made, the stored hits are those
   that any later call can see. So a limiter answers as its grants alone determine
   (`answer`), which refusals and prunes do not change (`Refines.calls`). -/
namespace HookGuard
open Py SlidingWindow

namespace auth

inductive Call where
  | allow (key : Str) (now : Datetime)
  | prune (now : Datetime)

namespace Call

def time : Call → Datetime
  | allow _ now | prune now => now

def isAllow : Call → Bool
  | allow _ _ => true
  | prune _ => false

end Call

/-- The calls are made at times that do not decrease. -/
def Ordered (calls : List Call) : Prop := calls.Pairwise fun c c' => c.time.us ≤ c'.time.us

/-- A limiter, with the grants it has made and the answers it has given. -/
structure Limited where
  limiter : Limiter
  grants : List (Str × Datetime) := []
  answers : List (Except Exc (Bool × Int)) := []

namespace Limited

/-- One call; where it raises, the limiter stays as it is. -/
def call (r : Limited) : Call → Limited
  | .allow key now =>
    match r.limiter.allow key now with
    | .error e => { r with answers := r.answers ++ [.error e] }
    | .ok ((allowed, wait), limiter) =>
      { limiter
        grants := if allowed then r.grants ++ [(key, now)] else r.grants
        answers := r.answers ++ [.ok (allowed, wait)] }
  | .prune now => { r with limiter := (r.limiter.prune now).toOption.getD r.limiter }

def calls (r : Limited) (cs : List Call) : Limited := cs.foldl call r

end Limited

/-- A limiter that was not called. -/
def fresh (maxHits : Nat) (positive : 0 < maxHits) (window : Int) : Limited :=
  ⟨⟨maxHits, positive, window, .empty⟩, [], []⟩

/-- The calls of a limiter that was not called before. -/
def made {maxHits : Nat} (positive : 0 < maxHits) (window : Int) (cs : List Call) : Limited :=
  (fresh maxHits positive window).calls cs

/-! ## What a limiter stores -/

/-- The times of the hits under a key. -/
def Limiter.stored (l : Limiter) (key : Str) : List Int :=
  ((l.hits.get key).getD []).map Datetime.us

/-- The times of a key's grants. -/
def grantsOf (grants : List (Str × Datetime)) (key : Str) : List Int :=
  (grants.filter fun g => g.1 = key).map fun g => g.2.us

/-- What a limiter that has made these grants answers. -/
def answer (maxHits : Nat) (window : Int) (grants : List (Str × Datetime)) (key : Str)
    (now : Int) : Bool × Int :=
  match live (now - window) (grantsOf grants key) with
  | [] => (true, 0)
  | oldest :: kept =>
    if maxHits ≤ kept.length + 1 then (false, window - (now - oldest)) else (true, 0)

/-- The stored hits are those of the grants that a call from `last` on can see. -/
structure Tracks (l : Limiter) (grants : List (Str × Datetime)) (last : Int) : Prop where
  stored : ∀ key c, last - l.window ≤ c → live c (l.stored key) = live c (grantsOf grants key)
  past : ∀ g ∈ grants, g.2.us ≤ last
  ordered : grants.Pairwise fun g g' => g.2.us ≤ g'.2.us

section Storage
variable {l : Limiter} {grants : List (Str × Datetime)} {last : Int} {key : Str}
  {now cutoff : Datetime}

theorem grantsOf_append (grants grants' : List (Str × Datetime)) (key : Str) :
    grantsOf (grants ++ grants') key = grantsOf grants key ++ grantsOf grants' key := by
  simp [grantsOf]

theorem grantsOf_own (key : Str) (now : Datetime) : grantsOf [(key, now)] key = [now.us] := by
  simp [grantsOf]

theorem grantsOf_other {key' : Str} (h : key' ≠ key) (now : Datetime) :
    grantsOf [(key, now)] key' = [] := by
  simp [grantsOf, Ne.symm h]

theorem mem_grantsOf {t : Int} (h : t ∈ grantsOf grants key) : ∃ g ∈ grants, g.2.us = t := by
  obtain ⟨g, hg, rfl⟩ := List.mem_map.mp h
  exact ⟨g, List.mem_of_mem_filter hg, rfl⟩

theorem Tracks.pastOf (h : Tracks l grants last) (key : Str) :
    ∀ t ∈ grantsOf grants key, t ≤ last := by
  intro t ht
  obtain ⟨g, hg, rfl⟩ := mem_grantsOf ht
  exact h.past g hg

theorem Tracks.orderedOf (h : Tracks l grants last) (key : Str) :
    (grantsOf grants key).Pairwise (· ≤ ·) :=
  List.pairwise_map.mpr (h.ordered.sublist List.filter_sublist)

theorem Tracks.later {last' : Int} (h : Tracks l grants last) (hlast : last ≤ last') :
    Tracks l grants last' :=
  ⟨fun key c hc => h.stored key c (by omega), fun g hg => (h.past g hg).trans hlast, h.ordered⟩

theorem stored_alter (key' : Str) (new : List Datetime) :
    Limiter.stored { l with hits := l.hits.alter key fun _ => new } key' =
      if key' = key then new.map Datetime.us else l.stored key' := by
  unfold Limiter.stored
  rw [Sqlite.Keyed.get_alter]
  split <;> rfl

theorem Tracks.replaced (h : Tracks l grants last) (hnow : last ≤ now.us)
    {new : List Datetime} (granted : Bool)
    (hnew : new.map Datetime.us =
      live (now.us - l.window) (grantsOf grants key) ++ if granted then [now.us] else []) :
    Tracks { l with hits := l.hits.alter key fun _ => new }
      (if granted then grants ++ [(key, now)] else grants) now.us where
  stored := by
    intro key' c hc
    rw [stored_alter]
    by_cases hkey : key' = key
    · subst hkey
      rw [if_pos rfl, hnew, live_append, live_live hc]
      cases granted with
      | true => rw [if_pos rfl, if_pos rfl, grantsOf_append, grantsOf_own, live_append]
      | false => simp [live]
    · rw [if_neg hkey, h.stored key' c (by simp only at hc; omega)]
      cases granted with
      | true => rw [if_pos rfl, grantsOf_append, grantsOf_other hkey, List.append_nil]
      | false => rfl
  past := by
    intro g hg
    have hearlier : ∀ g ∈ grants, g.2.us ≤ now.us := fun g hg => (h.past g hg).trans hnow
    cases granted with
    | true =>
      rcases List.mem_append.mp hg with hg | hg
      · exact hearlier g hg
      · rw [List.mem_singleton.mp hg]
    | false => exact hearlier g hg
  ordered := by
    cases granted with
    | true =>
      refine List.pairwise_append.mpr ⟨h.ordered, List.pairwise_singleton _ _, ?_⟩
      intro g hg g' hg'
      rw [List.mem_singleton.mp hg']
      exact (h.past g hg).trans hnow
    | false => exact h.ordered

theorem Tracks.allow (h : Tracks l grants last) (hnow : last ≤ now.us)
    (hcutoff : now.add (-l.window) = some cutoff) (key : Str) :
    ∃ hits, l.allow key now =
        .ok (answer l.maxHits l.window grants key now.us, { l with hits }) ∧
      Tracks { l with hits }
        (if (answer l.maxHits l.window grants key now.us).1 then grants ++ [(key, now)]
          else grants) now.us := by
  have hus : cutoff.us = now.us - l.window := by
    rw [Datetime.ofMicroseconds_eq_some hcutoff]
    rfl
  have hlive : ((((l.hits.get key).getD []).filter fun t => cutoff.us < t.us).map Datetime.us) =
      live (now.us - l.window) (grantsOf grants key) := by
    rw [← h.stored key _ (by omega), ← hus, live, Limiter.stored, List.filter_map]
    rfl
  unfold Limiter.allow answer
  simp only [hcutoff, ← hlive]
  cases hkept : ((l.hits.get key).getD []).filter fun t => cutoff.us < t.us with
  | nil =>
    rw [hkept] at hlive
    exact ⟨_, rfl, h.replaced hnow true (by rw [← hlive]; rfl)⟩
  | cons oldest kept =>
    rw [hkept] at hlive
    simp only [List.map_cons, List.length_map]
    by_cases hfull : l.maxHits ≤ kept.length + 1
    · simp only [hfull, if_true]
      exact ⟨_, rfl, h.replaced hnow false (by rw [← hlive]; simp)⟩
    · simp only [hfull, if_false]
      exact ⟨_, rfl, h.replaced hnow true (by rw [← hlive]; simp)⟩

/-- A prune drops nothing that a later call can see. -/
theorem Tracks.prune (h : Tracks l grants last) (hnow : last ≤ now.us) :
    ∃ hits, (l.prune now).toOption.getD l = { l with hits } ∧
      Tracks { l with hits } grants now.us := by
  unfold Limiter.prune
  cases hcutoff : now.add (-l.window) with
  | none => exact ⟨_, rfl, h.later hnow⟩
  | some cutoff =>
    have hus : cutoff.us = now.us - l.window := by
      rw [Datetime.ofMicroseconds_eq_some hcutoff]
      rfl
    refine ⟨_, rfl, ?_, fun g hg => (h.past g hg).trans hnow, h.ordered⟩
    intro key c hc
    rw [← h.stored key c (by simp only at hc; omega)]
    simp only at hc
    unfold Limiter.stored
    rw [Sqlite.Keyed.get_filter]
    cases hget : l.hits.get key with
    | none => rfl
    | some hits =>
      by_cases hany : (hits.any fun t => cutoff.us < t.us) = true
      · simp only [Option.filter, hany, if_true]
      · -- no hit of the key is seen any more
        have hnone : live c (hits.map Datetime.us) = [] := by
          apply live_eq_nil_of_le
          intro t ht
          obtain ⟨d, hd, rfl⟩ := List.mem_map.mp ht
          have hdead : ¬ cutoff.us < d.us := by
            intro hlt
            exact hany (List.any_eq_true.mpr ⟨d, hd, decide_eq_true hlt⟩)
          omega
        simp only [Option.filter, hany, Option.getD_some, hnone]
        rfl

end Storage

/-! ## Calls answered from the grants alone -/

/-- The grants of a limiter, and its answers. -/
structure History where
  grants : List (Str × Datetime) := []
  answers : List (Except Exc (Bool × Int)) := []

namespace History
variable (maxHits : Nat) (window : Int)

def call (h : History) : Call → History
  | .allow key now =>
    match now.add (-window) with
    | none => { h with answers := h.answers ++ [.error .overflowError] }
    | some _ =>
      let a := answer maxHits window h.grants key now.us
      { grants := if a.1 then h.grants ++ [(key, now)] else h.grants
        answers := h.answers ++ [.ok a] }
  | .prune _ => h

def calls (h : History) (cs : List Call) : History := cs.foldl (call maxHits window) h

variable {maxHits window}

/-- Prunes make no difference to it. -/
theorem calls_filter (h : History) (cs : List Call) :
    h.calls maxHits window (cs.filter Call.isAllow) = h.calls maxHits window cs := by
  unfold calls
  induction cs generalizing h with
  | nil => rfl
  | cons c cs ih =>
    cases c with
    | allow key now =>
      rw [List.filter_cons_of_pos rfl, List.foldl_cons, List.foldl_cons, ih]
    | prune now =>
      rw [List.filter_cons_of_neg (by simp [Call.isAllow]), List.foldl_cons, ih]
      rfl

theorem calls_answers (h : History) (cs : List Call) :
    h.calls maxHits window cs =
      { grants := (({ h with answers := [] } : History).calls maxHits window cs).grants
        answers := h.answers ++
          (({ h with answers := [] } : History).calls maxHits window cs).answers } := by
  unfold calls
  induction cs generalizing h with
  | nil => simp
  | cons c cs ih =>
    rw [List.foldl_cons, List.foldl_cons, ih (h.call maxHits window c),
      ih (({ h with answers := [] } : History).call maxHits window c)]
    cases c with
    | allow key now => cases hcutoff : now.add (-window) <;> simp [call, hcutoff]
    | prune now => simp [call]

end History

/-- The limiter is one that made these grants and gave these answers, and of no key were
    more than the limit granted within any window. -/
structure Refines (maxHits : Nat) (window : Int) (r : Limited) (h : History) (last : Int) :
    Prop where
  limit : r.limiter.maxHits = maxHits
  width : r.limiter.window = window
  grants : r.grants = h.grants
  answers : r.answers = h.answers
  tracks : Tracks r.limiter h.grants last
  bounded : ∀ key x,
    ((live (x - window) (grantsOf h.grants key)).filter (· ≤ x)).length ≤ maxHits

section Runs
variable {maxHits : Nat} {window last : Int} {r : Limited} {h : History} {c : Call}

theorem answer_granted_iff {grants : List (Str × Datetime)} {key : Str} {now : Int}
    (positive : 0 < maxHits) :
    (answer maxHits window grants key now).1 = true ↔
      (live (now - window) (grantsOf grants key)).length < maxHits := by
  unfold answer
  split
  · next hlive => simp [hlive, positive]
  · next hlive =>
    rw [hlive, List.length_cons]
    split
    · next hfull => simpa using hfull
    · next hfull => simpa using hfull

theorem Refines.bounded_snoc (hr : Refines maxHits window r h last) {key : Str} {now : Datetime}
    (hnow : last ≤ now.us)
    (hroom : (live (now.us - window) (grantsOf h.grants key)).length < maxHits) (key' : Str)
    (x : Int) :
    ((live (x - window) (grantsOf (h.grants ++ [(key, now)]) key')).filter (· ≤ x)).length ≤
      maxHits := by
  rw [grantsOf_append]
  by_cases hkey : key' = key
  · subst hkey
    rw [grantsOf_own]
    refine @SlidingWindow.length_window_snoc _ _ _ (fun x => x - window) ?_ _ _ ?_ hroom
      (hr.bounded key') x
    · intro a b hab
      exact Int.sub_le_sub_right hab _
    · intro t ht
      exact (hr.tracks.pastOf key' t ht).trans hnow
  · rw [grantsOf_other hkey, List.append_nil]
    exact hr.bounded key' x

/-- A call of the limiter is a call of its history. -/
theorem Refines.call (hr : Refines maxHits window r h last) (hc : last ≤ c.time.us) :
    Refines maxHits window (r.call c) (h.call maxHits window c) c.time.us := by
  have hsnoc := @Refines.bounded_snoc maxHits window last r h hr
  obtain ⟨rfl, rfl, hgrants, hanswers, htracks, hbounded⟩ := hr
  cases c with
  | prune now =>
    have hnow : last ≤ now.us := hc
    obtain ⟨hits, hprune, htracks'⟩ := htracks.prune hnow
    have hcall : r.call (.prune now) = { r with limiter := { r.limiter with hits } } := by
      simp only [Limited.call, hprune]
    rw [hcall]
    exact ⟨rfl, rfl, hgrants, hanswers, htracks', hbounded⟩
  | allow key now =>
    have hnow : last ≤ now.us := hc
    cases hcutoff : now.add (-r.limiter.window) with
    | none =>
      have hraises : r.limiter.allow key now = .error .overflowError := by
        unfold Limiter.allow
        rw [hcutoff]
      have hcall : r.call (.allow key now) =
          { r with answers := r.answers ++ [.error .overflowError] } := by
        simp only [Limited.call, hraises]
      have hhistory : h.call r.limiter.maxHits r.limiter.window (.allow key now) =
          { h with answers := h.answers ++ [.error .overflowError] } := by
        simp only [History.call, hcutoff]
      rw [hcall, hhistory]
      exact ⟨rfl, rfl, hgrants, by rw [hanswers], htracks.later hnow, hbounded⟩
    | some cutoff =>
      obtain ⟨hits, hallow, htracks'⟩ := htracks.allow hnow hcutoff key
      have hhistory : h.call r.limiter.maxHits r.limiter.window (.allow key now) =
          { grants := if (answer r.limiter.maxHits r.limiter.window h.grants key now.us).1 then
              h.grants ++ [(key, now)] else h.grants
            answers := h.answers ++
              [.ok (answer r.limiter.maxHits r.limiter.window h.grants key now.us)] } := by
        simp only [History.call, hcutoff]
      have hroom := @answer_granted_iff _ r.limiter.window h.grants key now.us
        r.limiter.positive
      rw [hhistory]
      generalize answer r.limiter.maxHits r.limiter.window h.grants key now.us = granted at *
      obtain ⟨granted, wait⟩ := granted
      have hcall : r.call (.allow key now) =
          { limiter := { r.limiter with hits }
            grants := if granted then r.grants ++ [(key, now)] else r.grants
            answers := r.answers ++ [.ok (granted, wait)] } := by
        simp only [Limited.call, hallow]
      rw [hcall]
      refine ⟨rfl, rfl, by rw [hgrants], by rw [hanswers], htracks', ?_⟩
      intro key' x
      cases granted with
      | false => exact hbounded key' x
      | true => exact hsnoc hnow (hroom.mp rfl) key' x

theorem Refines.calls {cs : List Call} {last' : Int} (hr : Refines maxHits window r h last)
    (hordered : Ordered cs) (hfirst : ∀ c ∈ cs, last ≤ c.time.us)
    (hlast : ∀ c ∈ cs, c.time.us ≤ last') (hle : last ≤ last') :
    Refines maxHits window (r.calls cs) (h.calls maxHits window cs) last' := by
  induction cs generalizing r h last with
  | nil => exact ⟨hr.limit, hr.width, hr.grants, hr.answers, hr.tracks.later hle, hr.bounded⟩
  | cons c cs ih =>
    rw [List.forall_mem_cons] at hfirst hlast
    obtain ⟨hnext, hrest⟩ := List.pairwise_cons.mp hordered
    exact ih (hr.call hfirst.1) hrest hnext hlast.2 hlast.1

theorem refines_fresh (positive : 0 < maxHits) (window last : Int) :
    Refines maxHits window (fresh maxHits positive window) {} last where
  limit := rfl
  width := rfl
  grants := rfl
  answers := rfl
  tracks := ⟨fun _ _ _ => rfl, by simp, .nil⟩
  bounded _ _ := Nat.zero_le _

theorem refines_made (positive : 0 < maxHits) (window : Int) {cs : List Call}
    (hordered : Ordered cs) (hlast : ∀ c ∈ cs, c.time.us ≤ last)
    (hle : -62135596800000000 ≤ last) :
    Refines maxHits window (made positive window cs)
      (({} : History).calls maxHits window cs) last :=
  (refines_fresh positive window (-62135596800000000)).calls hordered
    (fun c _ => c.time.lower) hlast hle

theorem Refines.allow (hr : Refines maxHits window r h last) {now cutoff : Datetime}
    (hnow : last ≤ now.us) (hcutoff : now.add (-window) = some cutoff) (key : Str) :
    ∃ limiter, r.limiter.allow key now =
      .ok (answer maxHits window h.grants key now.us, limiter) := by
  obtain ⟨rfl, rfl, -, -, htracks, -⟩ := hr
  obtain ⟨hits, hallow, -⟩ := htracks.allow hnow hcutoff key
  exact ⟨_, hallow⟩

theorem Refines.length_live_le (hr : Refines maxHits window r h last) (key : Str) :
    (live (last - window) (grantsOf h.grants key)).length ≤ maxHits := by
  have hall : (live (last - window) (grantsOf h.grants key)).filter (· ≤ last) =
      live (last - window) (grantsOf h.grants key) := by
    rw [List.filter_eq_self]
    intro t ht
    exact decide_eq_true (hr.tracks.pastOf key t (mem_live.mp ht).1)
  rw [← hall]
  exact hr.bounded key last

theorem answer_refused {grants : List (Str × Datetime)} {key : Str} {now wait : Int}
    (h : answer maxHits window grants key now = (false, wait)) :
    ∃ oldest kept, live (now - window) (grantsOf grants key) = oldest :: kept ∧
      maxHits ≤ kept.length + 1 ∧ wait = window - (now - oldest) := by
  unfold answer at h
  split at h
  · cases h
  · next oldest kept hlive =>
    split at h
    · next hfull => exact ⟨oldest, kept, hlive, hfull, by simpa using h.symm⟩
    · cases h

end Runs

/-! ## What a limiter grants -/

/-- How many grants of a key lie within the window that ends now. -/
def Limited.recent (r : Limited) (key : Str) (now : Datetime) : Nat :=
  (r.grants.filter fun g =>
    g.1 = key ∧ now.us - r.limiter.window < g.2.us ∧ g.2.us ≤ now.us).length

/-- The limiter grants a call, or refuses it. -/
def Limiter.Answers (l : Limiter) (key : Str) (now : Datetime) (allowed : Bool) : Prop :=
  ∃ wait after, l.allow key now = .ok ((allowed, wait), after)

section Semantics
variable {maxHits : Nat} {window : Int}

theorem Refines.recent_eq {r : Limited} {h : History} {now : Datetime}
    (hr : Refines maxHits window r h now.us) (key : Str) :
    r.recent key now = (live (now.us - window) (grantsOf h.grants key)).length := by
  obtain ⟨rfl, rfl, hgrants, -, htracks, -⟩ := hr
  unfold Limited.recent live grantsOf
  rw [List.filter_map, List.length_map, List.filter_filter, hgrants]
  congr 1
  apply List.filter_congr
  intro g hg
  have hpast := htracks.past g hg
  by_cases hkey : g.1 = key
  · simp [hkey, hpast]
  · simp [hkey]

/-- With no further grants of the key, a refused call is refused until its wait is over,
    and granted then. -/
theorem answer_after_wait {h h' : History} {r r' : Limited} {key : Str} {now t : Datetime}
    {wait : Int} (hr : Refines maxHits window r h now.us)
    (hr' : Refines maxHits window r' h' t.us) (hnow : now.us ≤ t.us)
    (hcutoff : (now.add (-window)).isSome = true)
    (hrefused : answer maxHits window h.grants key now.us = (false, wait))
    (hsame : grantsOf h'.grants key = grantsOf h.grants key) :
    0 < wait ∧ (t.us < now.us + wait → r'.limiter.Answers key t false) ∧
      (t.us = now.us + wait → r'.limiter.Answers key t true) := by
  obtain ⟨oldest, kept, hlive, hfull, rfl⟩ := answer_refused hrefused
  have hmem : oldest ∈ grantsOf h.grants key ∧ now.us - window < oldest :=
    mem_live.mp (hlive ▸ List.mem_cons_self)
  have hpast : oldest ≤ now.us := hr.tracks.pastOf key oldest hmem.1
  have hlength := hr.length_live_le key
  rw [hlive, List.length_cons] at hlength
  -- the window has a length, so that its start is in reach at `t` as it was
  obtain ⟨cutoff, hcutoff'⟩ : ∃ cutoff, t.add (-window) = some cutoff := by
    obtain ⟨cutoff, hsome⟩ := Option.isSome_iff_exists.mp hcutoff
    have hus : cutoff.us = now.us + -window := Datetime.ofMicroseconds_eq_some hsome
    have hlower := cutoff.lower
    have hupper := t.upper
    exact ⟨_, dif_pos ⟨by omega, by omega⟩⟩
  obtain ⟨limiter, hallow⟩ := hr'.allow le_rfl hcutoff' key
  refine ⟨by omega, ?_, ?_⟩
  · intro hbefore
    have hlive' : live (t.us - window) (grantsOf h'.grants key) = oldest :: kept := by
      rw [hsame]
      exact live_before_oldest (hr.tracks.orderedOf key) hlive (by omega) (by omega)
    refine ⟨window - (t.us - oldest), limiter, ?_⟩
    rw [hallow, answer, hlive']
    simp only [hfull, if_true]
  · intro hthen
    have hroom : (live (t.us - window) (grantsOf h'.grants key)).length < maxHits := by
      rw [hsame, show t.us - window = oldest by omega]
      have hless := length_live_oldest hlive
      omega
    refine ⟨(answer maxHits window h'.grants key t.us).2, limiter, ?_⟩
    rw [hallow, ← (answer_granted_iff (by omega)).mpr hroom]

theorem calls_append (h : History) (cs cs' : List Call) :
    h.calls maxHits window (cs ++ cs') =
      (h.calls maxHits window cs).calls maxHits window cs' := List.foldl_append

theorem calls_refused {h : History} {key : Str} {now : Datetime} {wait : Int}
    (hcutoff : (now.add (-window)).isSome = true)
    (hrefused : answer maxHits window h.grants key now.us = (false, wait)) (later : List Call) :
    h.calls maxHits window (.allow key now :: later) =
      { grants := (h.calls maxHits window later).grants
        answers := h.answers ++ .ok (false, wait) ::
          (({ h with answers := [] } : History).calls maxHits window later).answers } := by
  obtain ⟨cutoff, hsome⟩ := Option.isSome_iff_exists.mp hcutoff
  have hcall : h.call maxHits window (.allow key now) =
      { h with answers := h.answers ++ [.ok (false, wait)] } := by
    simp only [History.call, hsome, hrefused]
    rfl
  calc h.calls maxHits window (.allow key now :: later)
      = (h.call maxHits window (.allow key now)).calls maxHits window later := rfl
    _ = _ := by
      rw [hcall, History.calls_answers, History.calls_answers h]
      simp

section Refused
variable {calls later : List Call} {key : Str} {now : Datetime} {wait : Int}

theorem ordered_later (hordered : Ordered calls) (hlast : ∀ c ∈ calls, c.time.us ≤ now.us)
    (hlater : Ordered (.allow key now :: later)) :
    Ordered (calls ++ .allow key now :: later) ∧ Ordered (calls ++ later) := by
  obtain ⟨hnext, hrest⟩ := List.pairwise_cons.mp hlater
  have hbefore : ∀ c ∈ calls, ∀ c' ∈ .allow key now :: later, c.time.us ≤ c'.time.us := by
    intro c hc
    rw [List.forall_mem_cons]
    exact ⟨hlast c hc, fun c' hc' => (hlast c hc).trans (hnext c' hc')⟩
  exact ⟨List.pairwise_append.mpr ⟨hordered, hlater, hbefore⟩,
    List.pairwise_append.mpr
      ⟨hordered, hrest, fun c hc => (List.forall_mem_cons.mp (hbefore c hc)).2⟩⟩

theorem made_refused (positive : 0 < maxHits) (hordered : Ordered calls)
    (hlast : ∀ c ∈ calls, c.time.us ≤ now.us) (hlater : Ordered (.allow key now :: later))
    (hcutoff : (now.add (-window)).isSome = true)
    (hrefused : answer maxHits window (({} : History).calls maxHits window calls).grants key
      now.us = (false, wait)) :
    ∃ answers,
      (made positive window (calls ++ .allow key now :: later)).answers =
        (made positive window calls).answers ++ .ok (false, wait) :: answers ∧
      (made positive window (calls ++ later)).answers =
        (made positive window calls).answers ++ answers := by
  have hreach : ∀ cs : List Call, ∀ c ∈ cs, c.time.us ≤ 253402300800000000 :=
    fun cs c _ => c.time.upper.le
  obtain ⟨hordered', hordered''⟩ := ordered_later hordered hlast hlater
  let ended := ({} : History).calls maxHits window calls
  refine ⟨(({ ended with answers := [] } : History).calls maxHits window later).answers, ?_, ?_⟩
  · rw [(refines_made positive window hordered' (hreach _) (by omega)).answers,
      (refines_made positive window hordered hlast now.lower).answers, calls_append,
      calls_refused hcutoff hrefused]
  · rw [(refines_made positive window hordered'' (hreach _) (by omega)).answers,
      (refines_made positive window hordered hlast now.lower).answers, calls_append,
      History.calls_answers]

/-- With no further grants of its key, it is refused until its wait is over. -/
theorem made_after_wait (positive : 0 < maxHits) (hordered : Ordered calls)
    (hlast : ∀ c ∈ calls, c.time.us ≤ now.us) (hlater : Ordered (.allow key now :: later))
    (hcutoff : (now.add (-window)).isSome = true)
    (hrefused : answer maxHits window (({} : History).calls maxHits window calls).grants key
      now.us = (false, wait)) {t : Datetime}
    (ht : ∀ c ∈ .allow key now :: later, c.time.us ≤ t.us)
    (hsame : grantsOf (made positive window (calls ++ .allow key now :: later)).grants key =
      grantsOf (made positive window calls).grants key) :
    (t.us < now.us + wait →
      (made positive window (calls ++ .allow key now :: later)).limiter.Answers key t false) ∧
    (t.us = now.us + wait →
      (made positive window (calls ++ .allow key now :: later)).limiter.Answers key t true) := by
  have hnow : now.us ≤ t.us := ht _ List.mem_cons_self
  have hbound : ∀ c ∈ calls ++ .allow key now :: later, c.time.us ≤ t.us := by
    intro c hc
    rcases List.mem_append.mp hc with hc | hc
    · exact (hlast c hc).trans hnow
    · exact ht c hc
  have hr := refines_made positive window hordered hlast now.lower
  have hr' := refines_made positive window (ordered_later hordered hlast hlater).1 hbound t.lower
  rw [hr'.grants, hr.grants] at hsame
  exact (answer_after_wait hr hr' hnow hcutoff hrefused hsame).2

end Refused

/-- Over all sequences of calls at times that do not decrease: prunes change no answer. A
    call at a time whose window starts in reach of a `datetime` is granted exactly when
    fewer than the limit were granted within its window; a refusal changes no later answer,
    and its wait is positive, and over exactly when the call is granted again. -/
theorem limiter_semantics (positive : 0 < maxHits) {calls : List Call}
    (hordered : Ordered calls) :
    (made positive window calls).answers =
        (made positive window (calls.filter Call.isAllow)).answers ∧
      ∀ key now, (∀ c ∈ calls, c.time.us ≤ now.us) →
        (now.add (-window) = none →
          (made positive window calls).limiter.allow key now = .error .overflowError) ∧
        ((now.add (-window)).isSome = true → ∃ allowed wait after,
          (made positive window calls).limiter.allow key now = .ok ((allowed, wait), after) ∧
          (allowed = true ↔ (made positive window calls).recent key now < maxHits) ∧
          (allowed = false → 0 < wait ∧ ∀ later, Ordered (.allow key now :: later) →
            (∃ answers,
              (made positive window (calls ++ .allow key now :: later)).answers =
                (made positive window calls).answers ++ .ok (false, wait) :: answers ∧
              (made positive window (calls ++ later)).answers =
                (made positive window calls).answers ++ answers) ∧
            ∀ t, (∀ c ∈ .allow key now :: later, c.time.us ≤ t.us) →
              grantsOf (made positive window (calls ++ .allow key now :: later)).grants key =
                grantsOf (made positive window calls).grants key →
              (t.us < now.us + wait →
                (made positive window (calls ++ .allow key now :: later)).limiter.Answers
                  key t false) ∧
              (t.us = now.us + wait →
                (made positive window (calls ++ .allow key now :: later)).limiter.Answers
                  key t true))) := by
  have hreach : ∀ cs : List Call, ∀ c ∈ cs, c.time.us ≤ 253402300800000000 :=
    fun cs c _ => c.time.upper.le
  refine ⟨?_, ?_⟩
  · have hfilter : Ordered (calls.filter Call.isAllow) := hordered.sublist List.filter_sublist
    rw [(refines_made positive window hordered (hreach calls) (by omega)).answers,
      (refines_made positive window hfilter (hreach _) (by omega)).answers,
      History.calls_filter]
  · intro key now hlast
    have hr := refines_made positive window hordered hlast now.lower
    refine ⟨?_, ?_⟩
    · intro hcutoff
      unfold Limiter.allow
      rw [hr.width, hcutoff]
    · intro hcutoff
      obtain ⟨cutoff, hsome⟩ := Option.isSome_iff_exists.mp hcutoff
      obtain ⟨after, hallow⟩ := hr.allow le_rfl hsome key
      obtain ⟨allowed, wait, hanswer⟩ : ∃ allowed wait, answer maxHits window
          (({} : History).calls maxHits window calls).grants key now.us = (allowed, wait) :=
        ⟨_, _, rfl⟩
      rw [hanswer] at hallow
      refine ⟨allowed, wait, after, hallow, ?_, ?_⟩
      · rw [hr.recent_eq, ← answer_granted_iff positive, hanswer]
      · rintro rfl
        refine ⟨(answer_after_wait hr hr le_rfl hcutoff hanswer rfl).1, ?_⟩
        intro later hlater
        exact ⟨made_refused positive hordered hlast hlater hcutoff hanswer, fun t ht hsame =>
          made_after_wait positive hordered hlast hlater hcutoff hanswer ht hsame⟩

end Semantics

/-! ## Limiters written out -/

/-- `n` microseconds after the epoch. -/
def afterEpoch (n : Nat) (h : n < 253402300800000000) : Datetime := ⟨n, by omega, by omega⟩

/-- One login in a quarter of an hour: at once, and again after ten minutes. -/
def twoLogins : List Call :=
  [.allow (lit "127.0.0.1|ann@example.com") .epoch, .prune .epoch,
    .allow (lit "127.0.0.1|ann@example.com") (afterEpoch 600000000 (by decide))]

/-- After the second of them is refused, a third is refused for five minutes. -/
theorem limiter_semantics_login :
    ∃ wait after, (@made 1 (by decide) 900000000
        (twoLogins.take 2)).limiter.allow (lit "127.0.0.1|ann@example.com")
        (afterEpoch 600000000 (by decide)) = .ok ((false, wait), after) ∧ 0 < wait := by
  have h := (@limiter_semantics 1 900000000 (by decide)
    (twoLogins.take 2) (by simp [twoLogins, Ordered, Call.time])).2
    (lit "127.0.0.1|ann@example.com") (afterEpoch 600000000 (by decide)) (by
      simp only [twoLogins, List.take_succ_cons, List.take_zero, List.forall_mem_cons]
      decide)
  obtain ⟨allowed, wait, after, hallow, hgranted, hrefused⟩ := h.2 (by decide)
  have hfalse : allowed = false := by
    rw [← Bool.not_eq_true, hgranted]
    decide +kernel
  subst hfalse
  exact ⟨wait, after, hallow, (hrefused rfl).1⟩

/-- A window of more than two thousand years starts before the first of the years. -/
theorem first_call_raises :
    (@made 1 (by decide) 63072000000000000 []).recent (lit "key") .epoch = 0 ∧
      ¬ (@made 1 (by decide) 63072000000000000 []).limiter.Answers
        (lit "key") .epoch true := by
  refine ⟨rfl, ?_⟩
  rintro ⟨wait, after, hallow⟩
  cases hallow

end auth
end HookGuard
