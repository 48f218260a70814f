import HookGuard.Console.RateLimit
import HookGuard.Console.Requests

/- The wait a refused client is told, in whole seconds (`deps.too_many_requests`), against
   the wait the limiter keeps, in microseconds (`auth/ratelimit.py`).

   Over any calls, in order or not, a limiter stores no more hits of a key than the limit
   (`within_made`), so that a refused key is admitted as soon as one of its counted hits is
   out of the window; nothing others do adds to its hits (`Spared`). The header drops the
   fraction of the wait's last second (`dropped`), and what it tells comes too early by
   that (`retryAfter_admitted_iff`). -/
namespace HookGuard
open Py SlidingWindow

namespace auth

/-- The hits of a key that count at a time. -/
def Limiter.counted (l : Limiter) (key : Str) (now : Datetime) : List Int :=
  live (now.us - l.window) (l.stored key)

/-- Of no key more hits are stored than the limit. -/
structure Limiter.Within (maxHits : Nat) (window : Int) (l : Limiter) : Prop where
  limit : l.maxHits = maxHits
  width : l.window = window
  stored : ∀ key, (l.stored key).length ≤ maxHits

/-- The call does not ask for the key. -/
def Call.Other (key : Str) : Call → Prop
  | .allow key' _ => key' ≠ key
  | .prune _ => True

/-- What the header drops of a wait: the microseconds past its last whole second, as far as
    a double tells them. -/
def dropped (wait : Int) : Int := wait - 10 ^ 6 * truncate (nearestDouble (wait / 10 ^ 6))

/-- From a time on the limiter admits the key, whatever others do before. -/
def Limiter.Admits (l : Limiter) (key : Str) (t : Datetime) : Prop :=
  ∀ later : List Call, (∀ c ∈ later, c.Other key) → ∀ t' : Datetime, t.us ≤ t'.us →
    (({ limiter := l } : Limited).calls later).limiter.Answers key t' true

/-! ## One call -/

/-- What a call that does not raise answers, and what it leaves stored. -/
structure Limiter.Allowed (l : Limiter) (key : Str) (now : Datetime) (allowed : Bool)
    (wait : Int) (after : Limiter) : Prop where
  limit : after.maxHits = l.maxHits
  width : after.window = l.window
  stored : ∀ key', after.stored key' =
    if key' = key then l.counted key now ++ if allowed then [now.us] else []
    else l.stored key'
  room : allowed = true ↔ (l.counted key now).length < l.maxHits
  refused : allowed = false →
    ∃ oldest kept, l.counted key now = oldest :: kept ∧ wait = l.window - (now.us - oldest)

section Calls
variable {l after : Limiter} {key : Str} {now t : Datetime} {allowed : Bool} {wait : Int}

theorem Limiter.counted_eq {cutoff : Datetime} (h : now.add (-l.window) = some cutoff)
    (key : Str) :
    l.counted key now =
      (((l.hits.get key).getD []).filter fun t => cutoff.us < t.us).map Datetime.us := by
  have hus : cutoff.us = now.us - l.window := Datetime.ofMicroseconds_eq_some h
  rw [Limiter.counted, ← hus, live, Limiter.stored, List.filter_map]
  rfl

theorem Limiter.allow_allowed (h : l.allow key now = .ok ((allowed, wait), after)) :
    (now.add (-l.window)).isSome = true ∧ l.Allowed key now allowed wait after := by
  unfold Limiter.allow at h
  split at h
  · cases h
  · next cutoff hcutoff =>
    refine ⟨by rw [hcutoff]; rfl, ?_⟩
    have hcounted := Limiter.counted_eq hcutoff key
    split at h
    · next hkept =>
      rw [hkept] at hcounted
      cases h
      refine ⟨rfl, rfl, ?_, ?_, nofun⟩
      · intro key'
        rw [stored_alter, hcounted]
        rfl
      · simp [hcounted, l.positive]
    · next oldest kept hkept =>
      rw [hkept] at hcounted
      split at h
      · next hfull =>
        cases h
        refine ⟨rfl, rfl, ?_, ?_, fun _ => ⟨_, _, hcounted, rfl⟩⟩
        · intro key'
          rw [stored_alter, hcounted]
          simp
        · simpa [hcounted] using hfull
      · next hfull =>
        cases h
        refine ⟨rfl, rfl, ?_, ?_, nofun⟩
        · intro key'
          rw [stored_alter, hcounted]
          simp
        · simpa [hcounted] using hfull

theorem Limiter.answers_true_iff (h : (now.add (-l.window)).isSome = true) :
    l.Answers key now true ↔ (l.counted key now).length < l.maxHits := by
  obtain ⟨allowed, wait, after, hallow⟩ : ∃ allowed wait after,
      l.allow key now = .ok ((allowed, wait), after) := by
    obtain ⟨cutoff, hcutoff⟩ := Option.isSome_iff_exists.mp h
    unfold Limiter.allow
    simp only [hcutoff]
    split
    · exact ⟨_, _, _, rfl⟩
    · split
      · exact ⟨_, _, _, rfl⟩
      · exact ⟨_, _, _, rfl⟩
  rw [← (Limiter.allow_allowed hallow).2.room]
  refine ⟨?_, ?_⟩
  · rintro ⟨wait', after', hallow'⟩
    rw [hallow] at hallow'
    cases hallow'
    rfl
  · rintro rfl
    exact ⟨wait, after, hallow⟩

/-- A prune leaves the hits of a key, or drops them all. -/
theorem Limiter.prune_stored (now : Datetime) (key : Str) :
    ((l.prune now).toOption.getD l).stored key = l.stored key ∨
      ((l.prune now).toOption.getD l).stored key = [] := by
  unfold Limiter.prune
  cases now.add (-l.window) with
  | none => exact .inl rfl
  | some cutoff =>
    simp only [Except.toOption, Option.getD_some, Limiter.stored, Sqlite.Keyed.get_filter]
    cases l.hits.get key with
    | none => exact .inl rfl
    | some hits =>
      by_cases hany : (hits.any fun t => cutoff.us < t.us) = true
      · exact .inl (by simp only [Option.filter, hany, if_true])
      · exact .inr (by simp [Option.filter, hany])

theorem Limiter.prune_limits (now : Datetime) :
    ((l.prune now).toOption.getD l).maxHits = l.maxHits ∧
      ((l.prune now).toOption.getD l).window = l.window := by
  unfold Limiter.prune
  cases now.add (-l.window) with
  | none => exact ⟨rfl, rfl⟩
  | some cutoff => exact ⟨rfl, rfl⟩

end Calls

/-! ## Histories -/

section Histories
variable {maxHits : Nat} {window : Int} {l : Limiter} {key : Str} {r : Limited} {c : Call}

theorem Limited.call_allow (r : Limited) (key : Str) (now : Datetime) :
    (r.call (.allow key now)).limiter =
      match r.limiter.allow key now with
      | .error _ => r.limiter
      | .ok (_, after) => after := by
  simp only [Limited.call]
  cases r.limiter.allow key now with
  | error e => rfl
  | ok outcome => rfl

theorem Limiter.Within.call (h : r.limiter.Within maxHits window) (c : Call) :
    (r.call c).limiter.Within maxHits window := by
  obtain ⟨hlimit, hwidth, hstored⟩ := h
  cases c with
  | prune now =>
    have hlimits := @Limiter.prune_limits r.limiter now
    refine ⟨hlimits.1.trans hlimit, hlimits.2.trans hwidth, ?_⟩
    intro key
    show (((r.limiter.prune now).toOption.getD r.limiter).stored key).length ≤ maxHits
    rcases @Limiter.prune_stored r.limiter now key with hkept | hdropped
    · rw [hkept]
      exact hstored key
    · rw [hdropped]
      exact Nat.zero_le _
  | allow key now =>
    rw [Limited.call_allow]
    cases hallow : r.limiter.allow key now with
    | error e => exact ⟨hlimit, hwidth, hstored⟩
    | ok outcome =>
      obtain ⟨⟨allowed, wait⟩, after⟩ := outcome
      obtain ⟨-, hafter⟩ := Limiter.allow_allowed hallow
      refine ⟨hafter.limit.trans hlimit, hafter.width.trans hwidth, ?_⟩
      intro key'
      show (after.stored key').length ≤ maxHits
      rw [hafter.stored]
      by_cases hkey : key' = key
      · rw [if_pos hkey, List.length_append]
        cases hallowed : allowed with
        | true =>
          have hroom := hafter.room.mp hallowed
          rw [hlimit] at hroom
          exact hroom
        | false =>
          calc (r.limiter.counted key now).length + 0
              ≤ (r.limiter.stored key).length := List.length_filter_le _ _
            _ ≤ maxHits := hstored key
      · rw [if_neg hkey]
        exact hstored key'

theorem within_made (positive : 0 < maxHits) (window : Int) (calls : List Call) :
    (made positive window calls).limiter.Within maxHits window := by
  have hrun : ∀ r : Limited, r.limiter.Within maxHits window →
      (r.calls calls).limiter.Within maxHits window := by
    induction calls with
    | nil => exact fun r h => h
    | cons c calls ih => exact fun r h => ih (r.call c) (h.call c)
  exact hrun _ ⟨rfl, rfl, fun key => Nat.zero_le _⟩

/-- Of the hits of a key, nothing was added to what a limiter stores. -/
structure Spared (key : Str) (l l' : Limiter) : Prop where
  limit : l'.maxHits = l.maxHits
  width : l'.window = l.window
  stored : l'.stored key = l.stored key ∨ l'.stored key = []

theorem Spared.call {r : Limited} (h : Spared key l r.limiter) (hc : c.Other key) :
    Spared key l (r.call c).limiter := by
  cases c with
  | prune now =>
    have hlimits := @Limiter.prune_limits r.limiter now
    refine ⟨hlimits.1.trans h.limit, hlimits.2.trans h.width, ?_⟩
    rcases @Limiter.prune_stored r.limiter now key with hkept | hdropped
    · exact h.stored.imp hkept.trans hkept.trans
    · exact .inr hdropped
  | allow key' now =>
    rw [Limited.call_allow]
    cases hallow : r.limiter.allow key' now with
    | error e => exact h
    | ok outcome =>
      obtain ⟨⟨allowed, wait⟩, after⟩ := outcome
      obtain ⟨-, hafter⟩ := Limiter.allow_allowed hallow
      have hown : after.stored key = r.limiter.stored key := by
        rw [hafter.stored, if_neg (Ne.symm hc)]
      exact ⟨hafter.limit.trans h.limit, hafter.width.trans h.width,
        h.stored.imp hown.trans hown.trans⟩

theorem Spared.calls {r : Limited} {later : List Call} (h : Spared key l r.limiter)
    (hlater : ∀ c ∈ later, c.Other key) : Spared key l (r.calls later).limiter := by
  induction later generalizing r with
  | nil => exact h
  | cons c later ih =>
    rw [List.forall_mem_cons] at hlater
    exact ih (h.call hlater.1) hlater.2

end Histories

/-! ## The wait that is told -/

section Retry
variable {wait : Int}

theorem one_le_truncate (h : 10 ^ 6 ≤ wait) : 1 ≤ truncate (nearestDouble (wait / 10 ^ 6)) := by
  have hq : (1 : ℚ) ≤ (wait : ℚ) / 10 ^ 6 := by
    rw [le_div_iff₀ (by norm_num), one_mul]
    exact_mod_cast h
  have hdouble : (1 : ℚ) ≤ nearestDouble (wait / 10 ^ 6) :=
    calc (1 : ℚ) = 2 ^ (0 : Int) := (zpow_zero 2).symm
      _ ≤ 2 ^ Int.log 2 ((wait : ℚ) / 10 ^ 6) := by
        apply zpow_le_zpow_right₀ (by norm_num)
        rw [Int.log_of_one_le_right 2 hq]
        exact Int.natCast_nonneg _
      _ ≤ nearestDouble (wait / 10 ^ 6) := (nearestDouble_bounds (by linarith)).1
  rw [truncate, if_neg (by linarith)]
  exact Int.le_floor.mpr (by exact_mod_cast hdouble)

theorem dropped_eq (h0 : 0 ≤ wait) (h : wait < 10 ^ 6 * 2 ^ 33) :
    dropped wait = wait % 10 ^ 6 := by
  obtain ⟨seconds, fraction, hwait, hfraction⟩ : ∃ seconds fraction : Int,
      wait = 10 ^ 6 * seconds + fraction ∧ 0 ≤ fraction ∧ fraction < 10 ^ 6 :=
    ⟨wait / 10 ^ 6, wait % 10 ^ 6, by omega, by omega, by omega⟩
  have hq : (wait : ℚ) / 10 ^ 6 = seconds + (fraction : ℚ) / 10 ^ 6 := by
    rw [hwait]
    push_cast
    field_simp
    ring
  have hfraction0 : (0 : ℚ) ≤ fraction := by exact_mod_cast hfraction.1
  have hfraction1 : (fraction : ℚ) ≤ 10 ^ 6 - 1 := by
    have : fraction ≤ 10 ^ 6 - 1 := by omega
    exact_mod_cast this
  have hlong : (wait : ℚ) / 10 ^ 6 ≤ 2 ^ 33 := by
    rw [div_le_iff₀ (by norm_num), mul_comm]
    exact_mod_cast h.le
  have hpos : (0 : ℚ) ≤ (wait : ℚ) / 10 ^ 6 := by positivity
  have hnear := nearestDouble_within (q := (wait : ℚ) / 10 ^ 6) (b := 2 ^ 33)
    (by rwa [abs_of_nonneg hpos])
  have hlower : (seconds : ℚ) ≤ nearestDouble (wait / 10 ^ 6) := by
    rw [← nearestDouble_intCast (n := seconds) (by rw [abs_of_nonneg (by omega)]; omega)]
    apply nearestDouble_mono
    rw [hq]
    linarith [div_nonneg hfraction0 (show (0 : ℚ) ≤ 10 ^ 6 by norm_num)]
  have hupper : nearestDouble (wait / 10 ^ 6) < seconds + 1 := by
    have := (abs_le.mp hnear).2
    rw [hq] at this ⊢
    norm_num at this ⊢
    linarith
  have htruncate : truncate (nearestDouble (wait / 10 ^ 6)) = seconds := by
    rw [truncate, if_neg (by linarith [nearestDouble_nonneg hpos]), Int.floor_eq_iff]
    exact ⟨hlower, hupper⟩
  rw [dropped, htruncate]
  omega

/-- By the time that is told, a hit is out of the window: the wait was no more than a
    second, or the hit came early enough before the first to make up for what is dropped. -/
theorem expired_iff {window now oldest : Int} {hits : List Int} (hmem : oldest ∈ hits)
    (hwait : wait = window - (now - oldest)) :
    (∃ hit ∈ hits,
        hit ≤ now + 10 ^ 6 * max 1 (truncate (nearestDouble (wait / 10 ^ 6))) - window) ↔
      oldest + window ≤ now + 10 ^ 6 ∨
        ∃ hit ∈ hits, hit + dropped (oldest + window - now) ≤ oldest := by
  obtain rfl : wait = oldest + window - now := by omega
  unfold dropped
  generalize hseconds : truncate (nearestDouble ((oldest + window - now : Int) / 10 ^ 6)) = seconds
  by_cases hshort : oldest + window ≤ now + 10 ^ 6
  · exact iff_of_true ⟨oldest, hmem, by omega⟩ (.inl hshort)
  · have hone : 1 ≤ seconds := hseconds ▸ one_le_truncate (by omega)
    rw [max_eq_right hone, or_iff_right hshort]
    refine exists_congr fun hit => and_congr_right fun _ => ?_
    omega

variable {maxHits : Nat} {window : Int} {l after : Limiter} {key : Str} {now t : Datetime}

theorem reach_later (hwindow : 0 ≤ window) (h : (now.add (-window)).isSome = true)
    (hnow : now.us ≤ t.us) : (t.add (-window)).isSome = true := by
  obtain ⟨cutoff, hcutoff⟩ := Option.isSome_iff_exists.mp h
  have hus : cutoff.us = now.us + -window := Datetime.ofMicroseconds_eq_some hcutoff
  have hlower := cutoff.lower
  have hupper := t.upper
  unfold Datetime.add Datetime.ofMicroseconds
  rw [dif_pos ⟨by omega, by omega⟩]
  rfl

theorem admits_iff (h : l.Within maxHits window) (hfull : maxHits ≤ (l.stored key).length)
    (hreach : ∀ t' : Datetime, t.us ≤ t'.us → (t'.add (-window)).isSome = true) :
    l.Admits key t ↔ ∃ hit ∈ l.stored key, hit ≤ t.us - window := by
  obtain ⟨rfl, rfl, hstored⟩ := h
  have hout : ∀ t' : Datetime, (l.counted key t').length < (l.stored key).length ↔
      ∃ hit ∈ l.stored key, hit ≤ t'.us - l.window := by
    intro t'
    unfold Limiter.counted live
    rw [List.length_filter_lt_length_iff_exists]
    simp
  refine ⟨?_, ?_⟩
  · intro hadmits
    have hanswers : l.Answers key t true :=
      hadmits [] (fun c hc => absurd hc List.not_mem_nil) t le_rfl
    have hroom := (Limiter.answers_true_iff (hreach t le_rfl)).mp hanswers
    exact (hout t).mp (hroom.trans_le hfull)
  · rintro ⟨hit, hmem, hexpired⟩ later hlater t' ht'
    obtain ⟨hlimit, hwidth, hspared⟩ :=
      @Spared.calls l key { limiter := l } later ⟨rfl, rfl, .inl rfl⟩ hlater
    have hroom : (l.counted key t').length < l.maxHits :=
      ((hout t').mpr ⟨hit, hmem, by omega⟩).trans_le (hstored key)
    rw [Limiter.answers_true_iff (by rw [hwidth]; exact hreach t' ht'), hlimit, Limiter.counted,
      hwidth]
    rcases hspared with hkept | hdropped
    · rw [hkept]
      exact hroom
    · rw [hdropped]
      exact l.positive

/-- A refused client is admitted once a hit that counts is out of the window. -/
theorem admits_refused_iff (positive : 0 < maxHits) (hwindow : 0 ≤ window) (calls : List Call)
    {seconds : Int}
    (hrefused : (made positive window calls).limiter.allow key now =
      .ok ((false, wait), after))
    (hheader : console.tooManyRequests wait =
      .plain 429 "Too many attempts. Try again later." (some seconds))
    (ht : t.us = now.us + 10 ^ 6 * seconds) :
    ∃ oldest kept, (made positive window calls).limiter.counted key now = oldest :: kept ∧
      wait = window - (now.us - oldest) ∧
      (after.Admits key t ↔ ∃ hit ∈ oldest :: kept,
        hit ≤ now.us + 10 ^ 6 * max 1 (truncate (nearestDouble (wait / 10 ^ 6))) - window) := by
  obtain ⟨hreach, hafter⟩ := Limiter.allow_allowed hrefused
  obtain ⟨oldest, kept, hcounted, hwait⟩ := hafter.refused rfl
  obtain ⟨hlimit, hwidth, -⟩ := within_made positive window calls
  have hseconds : max 1 (truncate (nearestDouble (wait / 10 ^ 6))) = seconds := by
    unfold console.tooManyRequests at hheader
    injection hheader with _ _ hsome
    exact Option.some.inj hsome
  have hstored : after.stored key = oldest :: kept := by
    rw [hafter.stored, if_pos rfl, hcounted]
    simp
  have hfull : maxHits ≤ (after.stored key).length := by
    have hroom := hafter.room
    rw [hlimit, hcounted] at hroom
    rw [hstored]
    simpa using hroom
  have hwithin : after.Within maxHits window := by
    have hcall := (within_made positive window calls).call (.allow key now)
    rwa [Limited.call_allow, hrefused] at hcall
  rw [hwidth] at hreach hwait
  have hone : 1 ≤ seconds := hseconds ▸ le_max_left _ _
  have hlater : ∀ t' : Datetime, t.us ≤ t'.us → (t'.add (-window)).isSome = true :=
    fun t' ht' => reach_later hwindow hreach (by omega)
  refine ⟨oldest, kept, hcounted, hwait, ?_⟩
  rw [admits_iff hwithin hfull hlater, hstored, ht, ← hseconds]

/-- **The wait that is told.** A refused client that waits for the seconds of the header
    is admitted, in every history and whatever others do, exactly where its hits end in
    time: the first of those that count within a second, or one of them by as much
    before the first as the header drops of the wait. -/
theorem retryAfter_admitted_iff (positive : 0 < maxHits) (hwindow : 0 ≤ window)
    (calls : List Call) {seconds : Int}
    (hrefused : (made positive window calls).limiter.allow key now =
      .ok ((false, wait), after))
    (hheader : console.tooManyRequests wait =
      .plain 429 "Too many attempts. Try again later." (some seconds))
    (ht : t.us = now.us + 10 ^ 6 * seconds) :
    after.Admits key t ↔
      ∃ oldest kept, (made positive window calls).limiter.counted key now = oldest :: kept ∧
        (oldest + window ≤ now.us + 10 ^ 6 ∨
          ∃ hit ∈ oldest :: kept, hit + dropped (oldest + window - now.us) ≤ oldest) := by
  obtain ⟨oldest, kept, hcounted, hwait, hadmits⟩ :=
    admits_refused_iff positive hwindow calls hrefused hheader ht
  rw [hadmits, expired_iff List.mem_cons_self hwait]
  refine ⟨fun h => ⟨oldest, kept, hcounted, h⟩, ?_⟩
  rintro ⟨oldest', kept', hcounted', h⟩
  rw [hcounted] at hcounted'
  obtain ⟨rfl, rfl⟩ := List.cons.inj hcounted'
  exact h

/-- Where the clock does not go back, and the window is under 272 years, that is: exactly
    where the wait is within a second, or a whole number of them. -/
theorem retryAfter_whole_seconds (positive : 0 < maxHits) (hwindow : 0 ≤ window)
    (hyears : window < 10 ^ 6 * 2 ^ 33) {calls : List Call} (hordered : Ordered calls)
    (hlast : ∀ c ∈ calls, c.time.us ≤ now.us) {seconds : Int}
    (hrefused : (made positive window calls).limiter.allow key now =
      .ok ((false, wait), after))
    (hheader : console.tooManyRequests wait =
      .plain 429 "Too many attempts. Try again later." (some seconds))
    (ht : t.us = now.us + 10 ^ 6 * seconds) :
    after.Admits key t ↔ wait ≤ 10 ^ 6 ∨ 10 ^ 6 ∣ wait := by
  obtain ⟨oldest, kept, hcounted, hwait, hadmits⟩ :=
    admits_refused_iff positive hwindow calls hrefused hheader ht
  have hr := refines_made positive window hordered hlast now.lower
  have hgrants : live (now.us - window) (grantsOf (({} : History).calls maxHits window
      calls).grants key) = oldest :: kept := by
    rw [← hcounted, Limiter.counted, hr.width, hr.tracks.stored key _ (by rw [hr.width])]
  have hearliest : ∀ hit ∈ oldest :: kept, oldest ≤ hit := by
    have hsorted : (oldest :: kept).Pairwise (· ≤ ·) := by
      rw [← hgrants]
      exact (hr.tracks.orderedOf key).sublist List.filter_sublist
    rw [List.forall_mem_cons]
    exact ⟨le_rfl, (List.pairwise_cons.mp hsorted).1⟩
  have hcounts := mem_live.mp (hgrants ▸ List.mem_cons_self)
  have hpast : oldest ≤ now.us := hr.tracks.pastOf key oldest hcounts.1
  have hdropped : dropped (oldest + window - now.us) = wait % 10 ^ 6 := by
    rw [show oldest + window - now.us = wait by omega]
    exact dropped_eq (by omega) (by omega)
  rw [hadmits, expired_iff List.mem_cons_self hwait, hdropped]
  refine or_congr (by omega) ⟨?_, ?_⟩
  · rintro ⟨hit, hmem, hle⟩
    have := hearliest hit hmem
    omega
  · intro hwhole
    exact ⟨oldest, List.mem_cons_self, by omega⟩

end Retry

/-! ## Ten logins -/

theorem ten_pos : 0 < 10 := by decide

/-- Ten logins at once: as many as there may be in a quarter of an hour. -/
def tenLogins : List Call :=
  List.replicate 10 (.allow (lit "127.0.0.1|ann@example.com") .epoch)

/-- Whether the eleventh is admitted, and the wait, at `now` microseconds. -/
def eleventh (now : Datetime) : Option (Bool × Int) :=
  ((@made 10 ten_pos 900000000 tenLogins).limiter.allow
    (lit "127.0.0.1|ann@example.com") now).toOption.map Prod.fst

theorem eleventh_refused {now : Datetime} {wait : Int} (h : eleventh now = some (false, wait)) :
    ∃ after, (@made 10 ten_pos 900000000 tenLogins).limiter.allow
      (lit "127.0.0.1|ann@example.com") now = .ok ((false, wait), after) := by
  unfold eleventh at h
  cases hallow : (@made 10 ten_pos 900000000 tenLogins).limiter.allow
      (lit "127.0.0.1|ann@example.com") now with
  | error e =>
    rw [hallow] at h
    cases h
  | ok outcome =>
    rw [hallow] at h
    obtain ⟨⟨allowed, wait'⟩, after⟩ := outcome
    obtain ⟨rfl, rfl⟩ := Prod.mk.inj (Option.some.inj h)
    exact ⟨after, rfl⟩

/-- Half a second later the wait is told as 899 seconds, and by then no hit is out of the
    window. -/
theorem retryAfter_half_second :
    ∃ wait after, (@made 10 ten_pos 900000000 tenLogins).limiter.allow
        (lit "127.0.0.1|ann@example.com") (afterEpoch 500000 (by decide)) =
          .ok ((false, wait), after) ∧
      console.tooManyRequests wait =
        .plain 429 "Too many attempts. Try again later." (some 899) ∧
      ¬ after.Admits (lit "127.0.0.1|ann@example.com") (afterEpoch 899500000 (by decide)) := by
  obtain ⟨after, hrefused⟩ := @eleventh_refused (afterEpoch 500000 (by decide)) 899500000
    (by decide +kernel)
  have hheader : console.tooManyRequests 899500000 =
      .plain 429 "Too many attempts. Try again later." (some 899) := by decide +kernel
  refine ⟨_, after, hrefused, hheader, ?_⟩
  obtain ⟨oldest, kept, hcounted, -, hadmits⟩ :=
    @admits_refused_iff _ _ _ _ _ _ (afterEpoch 899500000 (by decide)) (by decide) (by decide)
      tenLogins _ hrefused hheader rfl
  rw [hadmits, ← hcounted]
  decide +kernel

/-- After ten minutes five are left, and the login then is granted. -/
theorem retryAfter_five_minutes :
    ∃ wait after, (@made 10 ten_pos 900000000 tenLogins).limiter.allow
        (lit "127.0.0.1|ann@example.com") (afterEpoch 600000000 (by decide)) =
          .ok ((false, wait), after) ∧
      console.tooManyRequests wait =
        .plain 429 "Too many attempts. Try again later." (some 300) ∧
      after.Admits (lit "127.0.0.1|ann@example.com") (afterEpoch 900000000 (by decide)) := by
  obtain ⟨after, hrefused⟩ := @eleventh_refused (afterEpoch 600000000 (by decide)) 300000000
    (by decide +kernel)
  have hheader : console.tooManyRequests 300000000 =
      .plain 429 "Too many attempts. Try again later." (some 300) := by decide +kernel
  refine ⟨_, after, hrefused, hheader, ?_⟩
  rw [@retryAfter_admitted_iff _ _ _ _ _ _ (afterEpoch 900000000 (by decide)) (by decide)
    (by decide) tenLogins _ hrefused hheader rfl]
  refine ⟨0, List.replicate 9 0, by decide +kernel, .inr ⟨0, List.mem_cons_self, ?_⟩⟩
  decide +kernel

end auth
end HookGuard
