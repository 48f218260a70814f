import HookGuard.Console.Store
import HookGuard.Core.GoDuration
import HookGuard.Lib.Runs

/- The prune of old events (`hookguard_console/retention.py`), by the setting it reads
   (`store/settings.py`).

   The setting is whatever text is stored, read with `int` and taken as it is: below one day
   the cutoff is not before now, and far above it no `datetime` is. The cutoff is compared in
   milliseconds that a double was cut off to, and an event within the same millisecond or the
   one before may fall on the wrong side (`sweep_exact_iff` says when a sweep deletes what it
   should). A sweep may leave no event at all, and then the
   store says what it said before the first (`neverEmpty_iff`). -/
namespace HookGuard
open Py store

namespace retention

def RETENTION_DAYS : Str := lit "retention_days"

def DEFAULT_RETENTION_DAYS : Int := 30

/-- A day, in microseconds. -/
def DAY : Int := 86400 * 10 ^ 6

/-- `get_retention_days`. -/
def getRetentionDays (db : Database) : Int :=
  match db.settings.get RETENTION_DAYS with
  | none => DEFAULT_RETENTION_DAYS
  | some raw =>
    match pyInt raw with
    | none => DEFAULT_RETENTION_DAYS
    | some days => days

/-- `set_retention_days`. -/
def setRetentionDays (busy : Option Msg) (s : Store) (days : Int) : Store × Except Exc Unit :=
  setSetting busy s RETENTION_DAYS (intStr days)

/-- `now - timedelta(days=days)`. -/
def cutoff (days : Int) (now : Datetime) : Except Exc Datetime :=
  match goduration.Timedelta.ofMicroseconds (days * DAY) with
  | .error e => .error e
  | .ok window =>
    match now.add (-window.us) with
    | none => .error .overflowError
    | some cutoff => .ok cutoff

/-- `sweep`: the number of events that it deletes. -/
def sweep (busy : Option Msg) (s : Store) (now : Datetime) : Store × Except Exc Nat :=
  match cutoff (getRetentionDays s.db) now with
  | .error e => (s, .error e)
  | .ok cutoff =>
    match deleteEventsOlderThan busy s cutoff.unixMs with
    | (s', .error e) => (s', .error e)
    | (s', .ok ()) => (s', .ok (s.db.events.length - s'.db.events.length))

/-- `has_any_event`. -/
def hasAnyEvent (s : Store) : Bool := !s.db.events.isEmpty

/-- The store without the events before a cutoff. -/
def pruned (s : Store) (cutoffMs : Int) : Store :=
  s.withDb { s.db with events := s.db.events.filter (cutoffMs ≤ ·.receivedAt) }

/-! ## What a sweep is to delete -/

/-- The number the setting holds, if it holds one. -/
def stored (db : Database) : Option Int := (db.settings.get RETENTION_DAYS).bind pyInt

/-- The days that events are to be kept: the stored number from one on, or the default. -/
def kept (db : Database) : Int :=
  match stored db with
  | some days => if 1 ≤ days then days else DEFAULT_RETENTION_DAYS
  | none => DEFAULT_RETENTION_DAYS

/-- The event is older than that many days, to the microsecond; where that is before every
    `datetime`, none is. -/
def due (days : Int) (now : Datetime) (r : EventRow) : Bool :=
  match now.add (-(days * DAY)) with
  | none => false
  | some cutoff => r.receivedAt * 1000 < cutoff.us

/-- The event lies between a cutoff and the milliseconds the sweep compares it with. -/
def Astray (cutoff : Datetime) (r : EventRow) : Prop :=
  ¬ (r.receivedAt < cutoff.unixMs ↔ r.receivedAt * 1000 < cutoff.us)

/-- A sweep returns, has deleted exactly the events that are due, and counts them. -/
def SweepsExactly (s : Store) (now : Datetime) : Prop :=
  ∃ s', sweep none s now = (s', .ok (s.db.events.filter (due (kept s.db) now)).length) ∧
    s'.db.events = s.db.events.filter (fun r => !due (kept s.db) now r) ∧
    s'.db.rollups = s.db.rollups

section Sweeps
variable {s : Store} {now : Datetime} {days : Int}

theorem getRetentionDays_eq (db : Database) :
    getRetentionDays db = (stored db).getD DEFAULT_RETENTION_DAYS := by
  simp only [getRetentionDays, stored]
  cases db.settings.get RETENTION_DAYS with
  | none => rfl
  | some raw =>
    simp only [Option.bind_some]
    cases pyInt raw <;> rfl

/-- No `timedelta` is too long for what lies between two times. -/
theorem cutoff_eq_ok {c : Datetime} :
    cutoff days now = .ok c ↔ now.add (-(days * DAY)) = some c := by
  unfold cutoff
  by_cases hlong : -86399999913600000000000 ≤ days * DAY ∧
      days * DAY < 86400000000000000000000
  · simp only [goduration.Timedelta.ofMicroseconds, dif_pos hlong]
    cases now.add (-(days * DAY)) <;> simp
  · simp only [goduration.Timedelta.ofMicroseconds, dif_neg hlong]
    refine iff_of_false nofun ?_
    intro hc
    have hus : c.us = now.us + -(days * DAY) := Datetime.ofMicroseconds_eq_some hc
    have hlower := c.lower
    have hupper := c.upper
    have hnow := now.lower
    have hnow' := now.upper
    omega

theorem sweep_eq {c : Datetime} (h : cutoff (getRetentionDays s.db) now = .ok c) :
    sweep none s now =
      (pruned s c.unixMs, .ok (s.db.events.length - (pruned s c.unixMs).db.events.length)) := by
  unfold sweep deleteEventsOlderThan Store.execute
  simp only [h, bindError_unixMs, Option.map_none]
  rfl

theorem Astray.near {c : Datetime} {r : EventRow} (h : Astray c r) :
    |r.receivedAt * 1000 - c.us| ≤ 1200 := by
  have hnear : |c.unixMs * 1000 - c.us| ≤ 1200 := by exact_mod_cast c.unixMs_near
  rw [abs_le] at hnear ⊢
  unfold Astray at h
  by_cases hlt : r.receivedAt < c.unixMs
  · have hnot : ¬ r.receivedAt * 1000 < c.us := fun hdue => h (iff_of_true hlt hdue)
    omega
  · have hdue : r.receivedAt * 1000 < c.us := by
      by_contra hnot
      exact h (iff_of_false hlt hnot)
    omega

/-- What is due after thirty days is before the cutoff of less than one. -/
theorem due_before {c : Datetime} (hdays : days < 1) (hc : now.add (-(days * DAY)) = some c)
    {r : EventRow} (h : due DEFAULT_RETENTION_DAYS now r = true) : r.receivedAt < c.unixMs := by
  unfold due at h
  split at h
  · cases h
  · next c' hc' =>
    have hus : c.us = now.us + -(days * DAY) := Datetime.ofMicroseconds_eq_some hc
    have hus' : c'.us = now.us + -(DEFAULT_RETENTION_DAYS * DAY) :=
      Datetime.ofMicroseconds_eq_some hc'
    have hlt := of_decide_eq_true h
    unfold DEFAULT_RETENTION_DAYS DAY at hus'
    unfold DAY at hus
    -- the two cutoffs are thirty days apart, more than the rounding can be off
    by_contra hnot
    have hastray : Astray c r := fun hiff => hnot (hiff.mpr (by omega))
    have hnear := hastray.near
    rw [abs_le] at hnear
    omega

theorem filter_eq_filter_iff {α : Type} {p q : α → Bool} {l : List α} :
    l.filter p = l.filter q ↔ ∀ x ∈ l, p x = q x := by
  refine ⟨?_, List.filter_congr⟩
  intro h x hx
  have hmem : x ∈ l.filter p ↔ x ∈ l.filter q := by rw [h]
  rw [List.mem_filter, List.mem_filter, and_iff_right hx, and_iff_right hx] at hmem
  exact Bool.eq_iff_iff.mpr hmem

/-- What the cutoff of the setting keeps is what is not due: where the setting holds no
    number under one, if no event is astray of it; else where no event lies between the two
    cutoffs. -/
theorem kept_pointwise_iff {c : Datetime}
    (hc : now.add (-((stored s.db).getD DEFAULT_RETENTION_DAYS * DAY)) = some c) :
    (∀ r ∈ s.db.events, decide (c.unixMs ≤ r.receivedAt) = !due (kept s.db) now r) ↔
      ((∀ days ∈ stored s.db, 1 ≤ days) → ∀ r ∈ s.db.events, ¬ Astray c r) ∧
      ∀ days ∈ stored s.db, days < 1 → ∀ r ∈ s.db.events, r.receivedAt < c.unixMs →
        due DEFAULT_RETENTION_DAYS now r = true := by
  have hown : ∀ r : EventRow, decide (c.unixMs ≤ r.receivedAt) =
      !due ((stored s.db).getD DEFAULT_RETENTION_DAYS) now r ↔ ¬ Astray c r := by
    intro r
    rw [due, hc, Astray, not_not, ← decide_not, decide_eq_decide, ← not_lt, not_iff_not]
  unfold kept
  cases hstored : stored s.db with
  | none =>
    rw [hstored, Option.getD_none] at hown
    refine (forall₂_congr fun r _ => hown r).trans ?_
    simp
  | some days =>
    rw [hstored, Option.getD_some] at hown hc
    simp only [Option.mem_some_iff, forall_eq']
    by_cases hone : 1 ≤ days
    · simp only [if_pos hone, hown, forall_prop_of_true hone]
      exact (and_iff_left (fun hless => absurd hone (by omega))).symm
    · have hless : days < 1 := by omega
      simp only [if_neg hone, forall_prop_of_true hless]
      rw [and_iff_right (fun hmore => absurd hmore hone)]
      refine forall₂_congr fun r _ => ?_
      have hbefore := @due_before now days c hless hc r
      cases hdue : due DEFAULT_RETENTION_DAYS now r with
      | true => simpa using hbefore hdue
      | false => simp

/-- **The prune.** A sweep deletes exactly what it should where the setting's days before
    now are in reach of a `datetime`; and either the setting holds no number under one, and
    no event lies between the cutoff and the milliseconds it is compared in; or it holds one,
    and no event lies between the cutoff that gives and the default's. -/
theorem sweep_exact_iff (s : Store) (now : Datetime) :
    SweepsExactly s now ↔
      ∃ c, now.add (-((stored s.db).getD DEFAULT_RETENTION_DAYS * DAY)) = some c ∧
        ((∀ days ∈ stored s.db, 1 ≤ days) → ∀ r ∈ s.db.events, ¬ Astray c r) ∧
        ∀ days ∈ stored s.db, days < 1 → ∀ r ∈ s.db.events, r.receivedAt < c.unixMs →
          due DEFAULT_RETENTION_DAYS now r = true := by
  have hreads : ∀ c, cutoff (getRetentionDays s.db) now = .ok c ↔
      now.add (-((stored s.db).getD DEFAULT_RETENTION_DAYS * DAY)) = some c := by
    intro c
    rw [cutoff_eq_ok, getRetentionDays_eq]
  unfold SweepsExactly
  refine ⟨?_, ?_⟩
  · rintro ⟨s', hsweep, hevents, -⟩
    cases hcut : cutoff (getRetentionDays s.db) now with
    | error e =>
      unfold sweep at hsweep
      rw [hcut] at hsweep
      cases congrArg Prod.snd hsweep
    | ok c =>
      have hc := (hreads c).mp hcut
      rw [sweep_eq hcut] at hsweep
      have hpruned : pruned s c.unixMs = s' := congrArg Prod.fst hsweep
      rw [← hpruned] at hevents
      exact ⟨c, hc, (kept_pointwise_iff hc).mp (filter_eq_filter_iff.mp hevents)⟩
  · rintro ⟨c, hc, hbetween⟩
    have hkeeps : (pruned s c.unixMs).db.events =
        s.db.events.filter (fun r => !due (kept s.db) now r) :=
      List.filter_congr ((kept_pointwise_iff hc).mpr hbetween)
    have hcount := List.length_eq_length_filter_add (l := s.db.events) (due (kept s.db) now)
    refine ⟨_, (sweep_eq ((hreads c).mpr hc)).trans ?_, hkeeps, rfl⟩
    rw [hkeeps, hcount, Nat.add_sub_cancel]

end Sweeps

/-- An event that just arrived, and no days to keep it. -/
def noDays : Store :=
  (setRetentionDays none
    (insertEvents .plain (fun _ => none) (connect {}) [.ofVerdict (lit "accepted")]).1 0).1

/-- An event that arrived a millisecond before the cutoff of 30 days, which is the 19th of
    January 2038, at 03:14:08.002. -/
def lastMoment : Store :=
  (insertEvents .plain (fun _ => none) (connect {})
    [{ Event.ofVerdict (lit "accepted") with receivedAt := 2147483648001 }]).1

/-- Under more days than there were since the year 1, which the settings page takes, the
    sweep raises; under none it deletes what just arrived; and under the default it may keep
    what is a millisecond too old. -/
theorem sweep_inexact :
    ¬ SweepsExactly (setRetentionDays none (connect {}) 1000000).1 .epoch ∧
    ¬ SweepsExactly noDays ⟨1000000, by decide, by decide⟩ ∧
    ¬ SweepsExactly lastMoment ⟨2150075648002000, by decide, by decide⟩ := by
  refine ⟨?_, ?_, ?_⟩
  · rintro ⟨s', hsweep, -⟩
    have hraises : (sweep none (setRetentionDays none (connect {}) 1000000).1 .epoch).2 =
        .error .overflowError := by decide +kernel
    rw [hsweep] at hraises
    cases hraises
  · rintro ⟨s', hsweep, -⟩
    have hdeletes : (sweep none noDays ⟨1000000, by decide, by decide⟩).2 = .ok 1 := by
      decide +kernel
    rw [hsweep] at hdeletes
    exact absurd (Except.ok.inj hdeletes) (by decide +kernel)
  · rintro ⟨s', hsweep, -⟩
    have hkeeps : (sweep none lastMoment ⟨2150075648002000, by decide, by decide⟩).2 = .ok 0 := by
      decide +kernel
    rw [hsweep] at hkeeps
    exact absurd (Except.ok.inj hkeeps) (by decide +kernel)

/-! ## Whether there was ever an event -/

/-- A batch, a sweep, or a change of the setting. -/
inductive Action where
  | insert (busy : Nat → Option Msg) (events : List Event)
  | sweep (busy : Option Msg) (now : Datetime)
  | setDays (busy : Option Msg) (days : Int)

/-- The store, and how many events were ever inserted. -/
structure State where
  store : Store := connect {}
  inserted : Nat := 0

/-- The store says of events what is so: that there was one. -/
def Tells (σ : State) : Prop := hasAnyEvent σ.store = true ↔ 0 < σ.inserted

/-- A sweep that finds events leaves one. -/
def Spares (σ : State) : Action → Prop
  | .sweep busy now => busy = none → σ.store.db.events ≠ [] →
    ∀ c, cutoff (getRetentionDays σ.store.db) now = .ok c →
      ∃ r ∈ σ.store.db.events, c.unixMs ≤ r.receivedAt
  | _ => True

section Runs
variable (eng : Engine)

def step (σ : State) : Action → State
  | .insert busy events =>
    let s := (insertEvents eng busy σ.store events).1
    { store := s, inserted := σ.inserted + (s.db.events.length - σ.store.db.events.length) }
  | .sweep busy now => { σ with store := (retention.sweep busy σ.store now).1 }
  | .setDays busy days => { σ with store := (setRetentionDays busy σ.store days).1 }

variable {eng}

theorem hasAnyEvent_iff (s : Store) : hasAnyEvent s = true ↔ s.db.events ≠ [] := by
  simp [hasAnyEvent]

theorem tells_insert {σ : State} (h : Tells σ) (busy : Nat → Option Msg) (events : List Event) :
    Tells (step eng σ (.insert busy events)) := by
  have hlength := length_appendEvents eng (admittedEvents eng busy events) σ.store.db
  rw [← insertEvents_db] at hlength
  unfold Tells at h ⊢
  rw [hasAnyEvent_iff, ← List.length_pos_iff] at h ⊢
  simp only [step]
  omega

theorem setRetentionDays_events (busy : Option Msg) (s : Store) (days : Int) :
    (setRetentionDays busy s days).1.db.events = s.db.events := by
  unfold setRetentionDays setSetting Store.execute
  cases busy <;> rfl

theorem sweep_events (busy : Option Msg) (s : Store) (now : Datetime) :
    (sweep busy s now).1.db.events =
      match busy, cutoff (getRetentionDays s.db) now with
      | none, .ok c => s.db.events.filter (c.unixMs ≤ ·.receivedAt)
      | _, _ => s.db.events := by
  cases hcut : cutoff (getRetentionDays s.db) now with
  | error e =>
    unfold sweep
    rw [hcut]
    cases busy <;> rfl
  | ok c =>
    cases busy with
    | none =>
      rw [sweep_eq hcut]
      rfl
    | some m =>
      unfold sweep deleteEventsOlderThan Store.execute
      simp only [hcut, bindError_unixMs, Option.map_some]

theorem tells_sweep_iff {σ : State} (h : Tells σ) (busy : Option Msg) (now : Datetime) :
    Tells (step eng σ (.sweep busy now)) ↔ Spares σ (.sweep busy now) := by
  unfold Tells at h ⊢
  rw [hasAnyEvent_iff] at h ⊢
  simp only [step, sweep_events, Spares]
  rw [← h]
  cases busy with
  | some m => simp
  | none =>
    cases hcut : cutoff (getRetentionDays σ.store.db) now with
    | error e => simp
    | ok c =>
      have hsome : σ.store.db.events.filter (c.unixMs ≤ ·.receivedAt) ≠ [] ↔
          ∃ r ∈ σ.store.db.events, c.unixMs ≤ r.receivedAt := by
        rw [ne_eq, List.filter_eq_nil_iff]
        simp
      simp only [hsome]
      refine ⟨?_, ?_⟩
      · rintro hiff - hne c' hc'
        rw [← Except.ok.inj hc']
        exact hiff.mpr hne
      · intro hspares
        refine ⟨?_, fun hne => hspares trivial hne c rfl⟩
        rintro ⟨r, hr, -⟩
        exact List.ne_nil_of_mem hr

/-- A step keeps it so exactly where, being a sweep, it spares an event. -/
theorem tells_step_iff (σ : State) (a : Action) (h : Tells σ) :
    Tells (step eng σ a) ↔ Spares σ a := by
  cases a with
  | insert busy events => exact iff_of_true (tells_insert h busy events) trivial
  | sweep busy now => exact tells_sweep_iff h busy now
  | setDays busy days =>
    refine iff_of_true ?_ trivial
    unfold Tells at h ⊢
    rw [hasAnyEvent_iff] at h ⊢
    simp only [step, setRetentionDays_events]
    exact h

/-- **The first run.** From an empty store on, the store tells whether there ever was an
    event after every part of a run exactly where each sweep of it that finds events
    leaves one. -/
theorem neverEmpty_iff (eng : Engine) (actions : List Action) :
    (∀ n, Tells ((actions.take n).foldl (step eng) {})) ↔
      Runs.Along (step eng) Spares {} actions :=
  Runs.Along.iff_invariant tells_step_iff (iff_of_false (by decide) (by decide))

end Runs

/-- The only event is older than thirty days, and the first-run state comes back. -/
theorem firstRun_again :
    ¬ Tells ([.insert (fun _ => none) [.ofVerdict (lit "accepted")],
      .sweep none ⟨31 * DAY, by decide, by decide⟩].foldl (step .plain) {}) := by
  unfold Tells
  decide +kernel

end retention
end HookGuard
