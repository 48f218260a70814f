import HookGuard.Console.Store

/- The ingest batcher (`hookguard_console/batcher.py`): a bounded queue that drops its
   oldest entry, and the write of a batch in three store calls.

   `rollupDeltas` sums a batch into buckets, keyed as a dictionary compares keys;
   `persist` inserts the events and, where that raised nothing, adds the rollups.
   A `State` keeps, beside the store, every row that was ever inserted. The rollups
   count those rows as long as each batch is written whole or not begun
   (`Clean`, `counts_of_clean`): a row refused after others were written leaves
   those out of the rollups, a rollup refused leaves out its bucket, and two
   providers that are one key to Python and two texts to SQLite are counted in the
   wrong bucket. -/
namespace HookGuard
open Py

namespace batcher
open store

def QUEUE_SIZE : Nat := 1024

def LAST_INGEST_SETTING : Str := lit "last_ingest_at"

/-- `hour_bucket`. -/
def hourBucket (unixMs : Int) : Int := unixMs / 1000 / 3600

/-- An event counted in the delta of its key, or in a new one. -/
def countEvent (e : Event) : List RollupDelta → List RollupDelta
  | [] => [⟨hourBucket e.receivedAt, e.provider, e.verdict, 1⟩]
  | d :: deltas =>
    if d.hour = hourBucket e.receivedAt ∧ d.provider.key = e.provider.key ∧
        d.verdict.key = e.verdict.key then
      { d with n := d.n + 1 } :: deltas
    else d :: countEvent e deltas

/-- `rollup_deltas`; a list or an object as a key is a `TypeError`. -/
def rollupDeltas (events : List Event) : Except Exc (List RollupDelta) :=
  if events.any (fun e => e.provider.key == .unhashable || e.verdict.key == .unhashable) then
    .error (.typeError (msg "unhashable type"))
  else .ok (events.foldl (fun deltas e => countEvent e deltas) [])

structure Batcher where
  queue : List Event := []
  dropped : Nat := 0

/-- `enqueue`: onto the end, dropping the oldest entry of a full queue. -/
def Batcher.enqueue (b : Batcher) (event : Event) : Batcher :=
  if b.queue.length < QUEUE_SIZE then { b with queue := b.queue ++ [event] }
  else { queue := b.queue.tail ++ [event], dropped := b.dropped + 1 }

/-- `_drain`. -/
def Batcher.drain (b : Batcher) : List Event × Batcher := (b.queue, { b with queue := [] })

theorem Batcher.enqueue_dropped (b : Batcher) (event : Event) :
    b.dropped ≤ (b.enqueue event).dropped := by
  unfold Batcher.enqueue
  split <;> simp

theorem Batcher.enqueue_queue {b : Batcher} {event : Event} (h : (b.enqueue event).dropped = 0) :
    (b.enqueue event).queue = b.queue ++ [event] := by
  unfold Batcher.enqueue at h ⊢
  split
  · rfl
  · next hfull => simp [hfull] at h

/-- The database's own refusals of one batch: of each event, of each rollup, of the
    setting. -/
structure Busy where
  insert : Nat → Option Msg := fun _ => none
  rollup : Nat → Option Msg := fun _ => none
  setting : Option Msg := none

section Persist
variable (eng : Engine)

/-- `_persist`: failures are logged, not raised. -/
def persist (busy : Busy) (s : Store) (pending : List Event) : Store :=
  match insertEvents eng busy.insert s pending with
  | (s, .error _) => s
  | (s, .ok ()) =>
    let s := match rollupDeltas pending with
      | .error _ => s
      | .ok deltas => (upsertRollups eng busy.rollup s deltas).1
    match pending.getLast? with
    | none => s
    | some e => (setSetting busy.setting s LAST_INGEST_SETTING (intStr e.receivedAt)).1

/-- A batch persisted, or a retention sweep. -/
inductive Action where
  | persist (busy : Busy) (pending : List Event)
  | sweep (busy : Option Msg) (cutoffMs : Int)

/-- The store, and every row that was ever inserted. -/
structure State where
  store : Store := connect {}
  inserted : List EventRow := []

def step (σ : State) : Action → State
  | .persist busy pending =>
    { store := persist eng busy σ.store pending
      inserted := σ.inserted ++ (insertEvents eng busy.insert σ.store pending).1.db.events.drop
        σ.store.db.events.length }
  | .sweep busy cutoffMs =>
    { σ with store := (deleteEventsOlderThan busy σ.store cutoffMs).1 }

/-- The state after a run from an empty database. -/
def run (actions : List Action) : State := actions.foldl (step eng) {}

/-- The bucket of a row. -/
def rowBucket (r : EventRow) : Bucket := ⟨hourBucket r.receivedAt, r.provider, r.verdict⟩

/-- The bucket of the row an event is stored as. -/
def eventBucket (e : Event) : Bucket := rowBucket (e.row eng 0)

/-- How many of the rows are of a bucket. -/
def tally (rows : List EventRow) (k : Bucket) : Int := (rows.map rowBucket).count k

/-- The rollups count the rows ever inserted. -/
def Counts (σ : State) : Prop := ∀ k, σ.store.db.rollups.count k = tally σ.inserted k

/-- Events of one key to Python are of one bucket to the database. -/
def Consistent (events : List Event) : Prop :=
  ∀ e ∈ events, ∀ e' ∈ events, hourBucket e.receivedAt = hourBucket e'.receivedAt →
    e.provider.key = e'.provider.key → e.verdict.key = e'.verdict.key →
    eventBucket eng e = eventBucket eng e'

/-- A batch that is written whole, events and rollups, or not begun. -/
def Action.Clean : Action → Prop
  | .persist busy pending =>
    admittedEvents eng busy.insert pending = [] ∨
    (Sqlite.NoneRefused (fun i e => eventRefusal eng (busy.insert i) e) pending ∧
      Consistent eng pending ∧
      ∀ deltas, rollupDeltas pending = .ok deltas →
        Sqlite.NoneRefused (fun i d => rollupRefusal eng (busy.rollup i) d) deltas)
  | .sweep _ _ => True

variable {eng}

/-! ## The deltas of a batch -/

/-- The delta is of the key of the event. -/
def IsOf (d : RollupDelta) (e : Event) : Prop :=
  d.hour = hourBucket e.receivedAt ∧ d.provider = e.provider ∧ d.verdict = e.verdict

theorem IsOf.bucket {d : RollupDelta} {e : Event} (h : IsOf d e) :
    d.bucket eng = eventBucket eng e := by
  obtain ⟨h1, h2, h3⟩ := h
  simp only [RollupDelta.bucket, eventBucket, rowBucket, Event.row, h1, h2, h3]

theorem countEvent_isOf {events : List Event} {e : Event} (he : e ∈ events)
    {deltas : List RollupDelta} (h : ∀ d ∈ deltas, ∃ x ∈ events, IsOf d x) :
    ∀ d ∈ countEvent e deltas, ∃ x ∈ events, IsOf d x := by
  induction deltas with
  | nil =>
    intro d hd
    rw [countEvent, List.mem_singleton] at hd
    rw [hd]
    exact ⟨e, he, rfl, rfl, rfl⟩
  | cons d₀ deltas ih =>
    intro d hd
    rw [countEvent] at hd
    split at hd
    · -- one more of a key that is there
      rcases List.mem_cons.mp hd with rfl | hd
      · exact h d₀ (by simp)
      · exact h d (by simp [hd])
    · rcases List.mem_cons.mp hd with rfl | hd
      · exact h d (by simp)
      · exact ih (fun x hx => h x (by simp [hx])) d hd

theorem countEvent_increment {events : List Event} (hc : Consistent eng events) {e : Event}
    (he : e ∈ events) (k : Bucket) {deltas : List RollupDelta}
    (h : ∀ d ∈ deltas, ∃ x ∈ events, IsOf d x) :
    Sqlite.Keyed.increment (increments eng (countEvent e deltas)) k =
      Sqlite.Keyed.increment (increments eng deltas) k +
        if eventBucket eng e = k then 1 else 0 := by
  induction deltas with
  | nil =>
    have hb : RollupDelta.bucket eng ⟨hourBucket e.receivedAt, e.provider, e.verdict, 1⟩ =
      eventBucket eng e := IsOf.bucket ⟨rfl, rfl, rfl⟩
    simp [countEvent, increments, Sqlite.Keyed.increment_cons, hb]
  | cons d deltas ih =>
    have hrest := ih fun x hx => h x (by simp [hx])
    simp only [increments] at hrest
    rw [countEvent]
    split
    · next hkey =>
      -- the delta of the event's key: of its bucket too
      obtain ⟨x, hx, hof⟩ := h d (by simp)
      have hb : d.bucket eng = eventBucket eng e := by
        rw [hof.bucket]
        exact hc x hx e he (hof.1 ▸ hkey.1) (hof.2.1 ▸ hkey.2.1) (hof.2.2 ▸ hkey.2.2)
      have hb' : RollupDelta.bucket eng { d with n := d.n + 1 } = eventBucket eng e := hb
      simp only [increments, List.map_cons, Sqlite.Keyed.increment_cons, hb, hb']
      split <;> omega
    · simp only [increments, List.map_cons, Sqlite.Keyed.increment_cons, hrest]
      omega

/-- Counting events adds to each bucket the number of them that are of it. -/
theorem foldl_increment {all : List Event} (hc : Consistent eng all) (k : Bucket)
    {events : List Event} {deltas : List RollupDelta} (hsub : ∀ e ∈ events, e ∈ all)
    (hof : ∀ d ∈ deltas, ∃ x ∈ all, IsOf d x) :
    Sqlite.Keyed.increment
        (increments eng (events.foldl (fun deltas e => countEvent e deltas) deltas)) k =
      Sqlite.Keyed.increment (increments eng deltas) k +
        (events.map (eventBucket eng)).count k := by
  induction events generalizing deltas with
  | nil => simp
  | cons e events ih =>
    have he : e ∈ all := hsub e (by simp)
    have hrest : ∀ x ∈ events, x ∈ all := fun x hx => hsub x (by simp [hx])
    have ih := ih hrest (countEvent_isOf he hof)
    rw [List.foldl_cons, ih, countEvent_increment hc he k hof, List.map_cons, List.count_cons]
    -- the event is one more of its own bucket
    by_cases hk : eventBucket eng e = k
    · simp only [hk, if_true, beq_self_eq_true]
      omega
    · simp only [hk, if_false, beq_iff_eq]
      omega

theorem rollupDeltas_increment {events : List Event} {deltas : List RollupDelta}
    (hc : Consistent eng events) (h : rollupDeltas events = .ok deltas) (k : Bucket) :
    Sqlite.Keyed.increment (increments eng deltas) k = (events.map (eventBucket eng)).count k := by
  unfold rollupDeltas at h
  split at h
  · cases h
  · have hnone : ∀ d ∈ ([] : List RollupDelta), ∃ x ∈ events, IsOf d x := by simp
    have hfold := foldl_increment hc k (fun _ he => he) hnone
    rw [Except.ok.inj h] at hfold
    simpa [increments] using hfold

theorem key_ne_unhashable {v : Value} (h : bindError v = none) : v.key ≠ .unhashable := by
  cases v with
  | float x => cases x <;> simp [Value.key]
  | list items => simp [bindError] at h
  | dict items => simp [bindError] at h
  | _ => simp [Value.key]

theorem rollupDeltas_ok {events : List Event} (h : ∀ e ∈ events, e.Storable) :
    ∃ deltas, rollupDeltas events = .ok deltas := by
  unfold rollupDeltas
  rw [if_neg]
  · exact ⟨_, rfl⟩
  · simp only [List.any_eq_true, Bool.or_eq_true, beq_iff_eq, not_exists, not_and, not_or]
    intro e he
    have hbind := (h e he).bind
    exact ⟨key_ne_unhashable (hbind _ (by simp [Event.fields])),
      key_ne_unhashable (hbind _ (by simp [Event.fields]))⟩

/-! ## What a batch leaves -/

theorem setSetting_frame (busy : Option Msg) (s : Store) (key value : Str) :
    (setSetting busy s key value).1.db.events = s.db.events ∧
      (setSetting busy s key value).1.db.rollups = s.db.rollups := by
  unfold setSetting Store.execute
  cases busy <;> exact ⟨rfl, rfl⟩

theorem deleteEventsOlderThan_rollups (busy : Option Msg) (s : Store) (cutoffMs : Int) :
    (deleteEventsOlderThan busy s cutoffMs).1.db.rollups = s.db.rollups := by
  unfold deleteEventsOlderThan Store.execute
  split <;> rfl

theorem persist_refused {busy : Busy} {s : Store} {pending : List Event}
    (h : (insertEvents eng busy.insert s pending).2 ≠ .ok ()) :
    persist eng busy s pending = (insertEvents eng busy.insert s pending).1 := by
  unfold persist
  cases hr : insertEvents eng busy.insert s pending with
  | mk s' result =>
  cases result with
  | error e => rfl
  | ok u => rw [hr] at h; exact absurd rfl h

theorem persist_accepted {busy : Busy} {s : Store} {pending : List Event}
    {deltas : List RollupDelta} (h : (insertEvents eng busy.insert s pending).2 = .ok ())
    (hd : rollupDeltas pending = .ok deltas) :
    (persist eng busy s pending).db.events =
        (insertEvents eng busy.insert s pending).1.db.events ∧
      (persist eng busy s pending).db.rollups =
        (upsertRollups eng busy.rollup (insertEvents eng busy.insert s pending).1
          deltas).1.db.rollups := by
  unfold persist
  cases hr : insertEvents eng busy.insert s pending with
  | mk s' result =>
  cases result with
  | error e => rw [hr] at h; cases h
  | ok u =>
    have hevents : (upsertRollups eng busy.rollup s' deltas).1.db.events = s'.db.events := by
      rw [upsertRollups_db]
    simp only [hd]
    cases pending.getLast? with
    | none => exact ⟨hevents, rfl⟩
    | some e =>
      obtain ⟨h1, h2⟩ := setSetting_frame busy.setting (upsertRollups eng busy.rollup s' deltas).1
        LAST_INGEST_SETTING (intStr e.receivedAt)
      exact ⟨h1.trans hevents, h2⟩

theorem storable_of_noneRefused {busy : Nat → Option Msg} {pending : List Event}
    (h : Sqlite.NoneRefused (fun i e => eventRefusal eng (busy i) e) pending) :
    ∀ e ∈ pending, e.Storable := by
  intro e he
  obtain ⟨i, hi, rfl⟩ := List.mem_iff_getElem.mp he
  exact (eventRefusal_none_iff.mp (h i hi)).2

/-- Whatever becomes of the rollups, the events are those the insert leaves. -/
theorem persist_events (busy : Busy) (s : Store) (pending : List Event) :
    (persist eng busy s pending).db.events =
      (insertEvents eng busy.insert s pending).1.db.events := by
  by_cases hok : (insertEvents eng busy.insert s pending).2 = .ok ()
  · obtain ⟨deltas, hd⟩ :=
      rollupDeltas_ok (storable_of_noneRefused ((insertEvents_ok_iff s pending).mp hok))
    exact (persist_accepted hok hd).1
  · rw [persist_refused hok]

theorem persist_nothing {busy : Busy} {s : Store} {pending : List Event}
    (h : admittedEvents eng busy.insert pending = []) :
    (persist eng busy s pending).db.rollups = s.db.rollups := by
  have hdb : (insertEvents eng busy.insert s pending).1.db = s.db := by
    rw [insertEvents_db, h]
    rfl
  rcases Sqlite.admitted_eq_nil_iff.mp h with rfl | ⟨e, rest, rfl, hfirst⟩
  · have hd : rollupDeltas [] = .ok [] := rfl
    rw [(persist_accepted rfl hd).2, upsertRollups_db, hdb]
    rfl
  · -- the first event is refused, and the rollups are not reached
    have hraises : (insertEvents eng busy.insert s (e :: rest)).2 ≠ .ok () := by
      rw [ne_eq, insertEvents_ok_iff, Sqlite.noneRefused_cons]
      exact fun hnone => hfirst hnone.1
    rw [persist_refused hraises, hdb]

theorem persist_rollups {busy : Busy} {s : Store} {pending : List Event}
    {deltas : List RollupDelta}
    (hnone : Sqlite.NoneRefused (fun i e => eventRefusal eng (busy.insert i) e) pending)
    (hd : rollupDeltas pending = .ok deltas)
    (hrollups : Sqlite.NoneRefused (fun i d => rollupRefusal eng (busy.rollup i) d) deltas) :
    (persist eng busy s pending).db.rollups = s.db.rollups.bump (increments eng deltas) := by
  have hok : (insertEvents eng busy.insert s pending).2 = .ok () :=
    (insertEvents_ok_iff _ _).mpr hnone
  obtain ⟨rows, heq, -⟩ := appendEvents_eq eng (admittedEvents eng busy.insert pending) s.db
  rw [(persist_accepted hok hd).2, upsertRollups_db, insertEvents_db, heq, admittedDeltas,
    Sqlite.admitted_eq_self_iff.mpr hrollups]

theorem inserted_map (busy : Busy) (s : Store) (pending : List Event) :
    (((insertEvents eng busy.insert s pending).1.db.events.drop s.db.events.length).map
      rowBucket) = (admittedEvents eng busy.insert pending).map (eventBucket eng) := by
  obtain ⟨rows, heq, hrows⟩ :=
    appendEvents_eq eng (admittedEvents eng busy.insert pending) s.db
  rw [insertEvents_db, heq, List.drop_left]
  have hbucket : rowBucket ∘ EventRow.content = rowBucket := rfl
  calc rows.map rowBucket = (rows.map EventRow.content).map rowBucket := by
        rw [List.map_map, hbucket]
    _ = _ := by
        rw [hrows, List.map_map]
        rfl

theorem tally_append (rows rows' : List EventRow) (k : Bucket) :
    tally (rows ++ rows') k = tally rows k + tally rows' k := by
  simp [tally]

/-- A clean action keeps the counts. -/
theorem counts_step {σ : State} {a : Action} (hclean : a.Clean eng) (h : Counts σ) :
    Counts (step eng σ a) := by
  intro k
  cases a with
  | sweep busy cutoffMs =>
    simp only [step, deleteEventsOlderThan_rollups]
    exact h k
  | persist busy pending =>
    have htally : tally (step eng σ (.persist busy pending)).inserted k =
        tally σ.inserted k +
          ((admittedEvents eng busy.insert pending).map (eventBucket eng)).count k := by
      simp only [step, tally_append]
      rw [← inserted_map busy σ.store pending, tally, tally]
    rw [htally, ← h k]
    rcases hclean with hnil | ⟨hnone, hcons, hrollups⟩
    · -- nothing of it is written
      simp only [step, persist_nothing hnil, hnil, List.map_nil, List.count_nil]
      omega
    · -- all of it is written, and the rollups get what the events come to
      obtain ⟨deltas, hd⟩ := rollupDeltas_ok (storable_of_noneRefused hnone)
      have hrows : (step eng σ (.persist busy pending)).store.db.rollups =
          σ.store.db.rollups.bump (increments eng deltas) :=
        persist_rollups hnone hd (hrollups deltas hd)
      rw [hrows, Sqlite.Keyed.count_bump, rollupDeltas_increment hcons hd, admittedEvents,
        Sqlite.admitted_eq_self_iff.mpr hnone]

theorem counts_foldl {actions : List Action} (clean : ∀ a ∈ actions, a.Clean eng) :
    ∀ {σ : State}, Counts σ → Counts (actions.foldl (step eng) σ) := by
  induction actions with
  | nil => exact fun h => h
  | cons a actions ih =>
    intro σ h
    rw [List.forall_mem_cons] at clean
    exact ih clean.2 (counts_step clean.1 h)

/-- In a run of clean actions the rollups count the rows ever inserted. -/
theorem counts_of_clean (eng : Engine) {actions : List Action}
    (clean : ∀ a ∈ actions, a.Clean eng) : Counts (run eng actions) :=
  counts_foldl clean fun _ => rfl

end Persist

/-- Two accepted events and a rejected one, in two batches, and a sweep between them. -/
theorem counts_swept :
    Counts (run .plain [.persist {} [.ofVerdict (lit "accepted"), .ofVerdict (lit "rejected")],
      .sweep none 1, .persist {} [.ofVerdict (lit "accepted")]]) := by
  refine counts_of_clean .plain ?_
  rw [List.forall_mem_cons, List.forall_mem_cons, List.forall_mem_singleton]
  refine ⟨.inr ⟨?_, ?_, ?_⟩, trivial, .inr ⟨?_, ?_, ?_⟩⟩
  · unfold Sqlite.NoneRefused; decide
  · unfold Consistent; decide
  · intro deltas hd
    obtain rfl := Except.ok.inj hd
    unfold Sqlite.NoneRefused; decide
  · unfold Sqlite.NoneRefused; decide
  · unfold Consistent; decide
  · intro deltas hd
    obtain rfl := Except.ok.inj hd
    unfold Sqlite.NoneRefused; decide

/-- An event is written, the one after it is refused, and the rollups count neither. -/
theorem counts_lost :
    ¬ Counts
      (run .plain [.persist {} [.ofVerdict (lit "accepted"), .ofVerdict (lit "bogus")]]) := by
  intro h
  exact absurd (h ⟨0, .text [], .text (lit "accepted")⟩) (by decide)

end batcher
end HookGuard
