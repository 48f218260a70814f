import Mathlib.Data.List.Sort
import HookGuard.Console.Store
import HookGuard.Lib.Runs
import HookGuard.Lib.Table

/- The live tail (`handle_logs_stream` of `hookguard_console/routes/logs.py`): one stream
   that polls the events table with a cursor on the row id, while events are inserted and
   a sweep deletes old ones.

   A `State` keeps, beside the table, every row ever inserted and every row sent. What is
   sent is sent in the order it was inserted, and no row twice, in every run. A row is
   missed where its id is not past the cursor. Ids are given out again: the table has no
   AUTOINCREMENT, so after a sweep of the newest rows the next id is one the stream has
   passed (`tail_misses`). Where no event is inserted while the greatest id of the table
   is below the stream's mark, nothing is missed (`tail_complete`). -/
namespace HookGuard
open Py Runs

namespace tail
open store

def STREAM_BATCH_LIMIT : Nat := 100

/-- `models.EventFilter`. -/
structure EventFilter where
  provider : Str := []
  verdict : Str := []
  reason : Str := []
  path : Str := []
  fromMs : Int := 0
  toMs : Int := 0

/-- `latest_event_id`. -/
def latestEventId (db : Database) : Nat := (db.events.map EventRow.id).foldl max 0

/-- `events_since`. -/
def eventsSince (db : Database) (sinceId limit : Nat) : List EventRow :=
  ((db.events.filter fun r => sinceId < r.id).insertionSort fun a b => a.id ≤ b.id).take limit

/-- `_matches`. -/
def eventMatches (event : EventRow) (f : EventFilter) : Bool :=
  if f.provider ≠ [] ∧ event.provider ≠ .text f.provider then false
  else if f.verdict ≠ [] ∧ event.verdict ≠ .text f.verdict then false
  else if f.reason ≠ [] ∧ contains (event.reason.asText.getD []) f.reason = false then false
  else if f.path ≠ [] ∧ contains (event.path.asText.getD []) f.path = false then false
  else if f.fromMs ≠ 0 ∧ event.receivedAt < f.fromMs then false
  else !(f.toMs ≠ 0 && event.receivedAt > f.toMs)

/-- Where the stream stands: not at its first query yet; between two polls; with a batch
    that was queried and is not sent yet; or at its end. -/
inductive Phase where
  | created
  | polling (cursor : Nat)
  | holding (cursor : Nat) (batch : List EventRow)
  | over

/-- The store, every row ever inserted, the stream, how many rows had been inserted when it
    took its cursor, and what it has sent. -/
structure State where
  store : Store := connect {}
  inserted : List EventRow := []
  phase : Phase := .created
  since : Nat := 0
  sent : List EventRow := []

inductive Action where
  | insert (busy : Nat → Option Msg) (events : List Event)
  | sweep (busy : Option Msg) (cutoffMs : Int)
  | connect
  | query
  | deliver
  | leave

section Stream
variable (eng : Engine) (formats : Int → Bool) (f : EventFilter)

/-- After its query the stream goes on with the last id; a time that cannot be formatted
    raises, and ends it. -/
def State.deliver (σ : State) (cursor : Nat) (batch : List EventRow) : State :=
  match batch.getLast? with
  | none => { σ with phase := .polling cursor }
  | some last =>
    let payload := batch.filter fun e => eventMatches e f
    if payload.all fun e => formats e.receivedAt then
      { σ with phase := .polling last.id, sent := σ.sent ++ payload }
    else { σ with phase := .over }

/-- One step: of the writers, or of the stream between two of its awaits. -/
def step (σ : State) : Action → State
  | .insert busy events =>
    { σ with
      store := (insertEvents eng busy σ.store events).1
      inserted := σ.inserted ++
        (insertEvents eng busy σ.store events).1.db.events.drop σ.store.db.events.length }
  | .sweep busy cutoffMs => { σ with store := (deleteEventsOlderThan busy σ.store cutoffMs).1 }
  | .connect =>
    match σ.phase with
    | .created =>
      { σ with phase := .polling (latestEventId σ.store.db), since := σ.inserted.length }
    | _ => σ
  | .query =>
    match σ.phase with
    | .polling cursor =>
      { σ with phase := .holding cursor (eventsSince σ.store.db cursor STREAM_BATCH_LIMIT) }
    | _ => σ
  | .deliver =>
    match σ.phase with
    | .holding cursor batch => σ.deliver formats f cursor batch
    | _ => σ
  | .leave => { σ with phase := .over }

/-- The cursor, once the batch at hand is sent. -/
def State.mark (σ : State) : Nat :=
  match σ.phase with
  | .created | .over => 0
  | .polling cursor => cursor
  | .holding cursor batch => (batch.getLast?.map EventRow.id).getD cursor

def State.batch (σ : State) : List EventRow :=
  match σ.phase with
  | .holding _ batch => batch
  | _ => []

/-- The rows the stream has still to query. -/
def State.ahead (σ : State) : List EventRow :=
  match σ.phase with
  | .over => []
  | _ => σ.store.db.events.filter fun r => σ.mark < r.id

/-- The poll that found nothing missed nothing: what was inserted since the cursor was
    taken, matches and is in the table has been sent. -/
def Complete (σ : State) : Prop :=
  ∀ r ∈ σ.store.db.events, r ∈ σ.inserted.drop σ.since → eventMatches r f = true → r ∈ σ.sent

/-- What the stream promises of a step: no row is sent twice, rows are sent in the order
    they were inserted, and a poll that finds nothing missed nothing. -/
structure Promise (σ : State) (a : Action) : Prop where
  once : ((step eng formats f σ a).sent.map EventRow.id).Pairwise (· < ·)
  order : (step eng formats f σ a).sent.Sublist (step eng formats f σ a).inserted
  complete : ∀ cursor, a = .query → σ.phase = .polling cursor →
    eventsSince σ.store.db cursor STREAM_BATCH_LIMIT = [] → Complete f σ

/-- No event is inserted while the greatest id of the table is below the mark. -/
def Prompt (σ : State) : Action → Prop
  | .insert _ _ => σ.mark ≤ latestEventId σ.store.db
  | _ => True

variable {eng formats f}

/-! ## The table -/

theorem le_latestEventId (db : Database) {r : EventRow} (h : r ∈ db.events) :
    r.id ≤ latestEventId db :=
  (Sqlite.le_foldl_max _ 0).2 r.id (List.mem_map_of_mem h)

/-- Each row has an id past those of the rows before it. -/
def Increasing (rows : List EventRow) : Prop := (rows.map EventRow.id).Pairwise (· < ·)

theorem Increasing.sublist {rows rows' : List EventRow} (h : Increasing rows)
    (hsub : rows'.Sublist rows) : Increasing rows' :=
  List.Pairwise.sublist (hsub.map _) h

theorem Increasing.append {rows rows' : List EventRow} (h : Increasing rows)
    (h' : Increasing rows') (hlt : ∀ r ∈ rows, ∀ r' ∈ rows', r.id < r'.id) :
    Increasing (rows ++ rows') := by
  unfold Increasing at h h' ⊢
  rw [List.map_append, List.pairwise_append]
  refine ⟨h, h', ?_⟩
  intro n hn n' hn'
  obtain ⟨r, hr, rfl⟩ := List.mem_map.mp hn
  obtain ⟨r', hr', rfl⟩ := List.mem_map.mp hn'
  exact hlt r hr r' hr'

theorem appendEvents_increasing (events : List Event) (db : Database)
    (h : Increasing db.events) :
    ∃ rows, (appendEvents eng db events).events = db.events ++ rows ∧
      Increasing (db.events ++ rows) ∧ ∀ r ∈ rows, latestEventId db < r.id := by
  induction events generalizing db with
  | nil => exact ⟨[], by simp [appendEvents], by simpa using h, by simp⟩
  | cons e events ih =>
    have hnew : ∀ r ∈ db.events, r.id < db.nextEventId := fun r hr =>
      Nat.lt_succ_of_le (le_latestEventId db hr)
    have hrow : Increasing [e.row eng db.nextEventId] := by simp [Increasing]
    have hone : Increasing (db.events ++ [e.row eng db.nextEventId]) :=
      h.append hrow fun r hr r' hr' => by
        rw [List.mem_singleton.mp hr']
        exact hnew r hr
    obtain ⟨rows, heq, hinc, hids⟩ :=
      ih { db with events := db.events ++ [e.row eng db.nextEventId] } hone
    refine ⟨e.row eng db.nextEventId :: rows, ?_, ?_, ?_⟩
    · exact heq.trans (by simp)
    · simpa using hinc
    · intro r hr
      rcases List.mem_cons.mp hr with rfl | hr
      · exact Nat.lt_succ_self _
      · -- the rows after it are past it
        have hlatest := hids r hr
        have hmem : e.row eng db.nextEventId ∈ db.events ++ [e.row eng db.nextEventId] := by simp
        have hle := le_latestEventId { db with events := db.events ++ [e.row eng _] } hmem
        exact Nat.lt_trans (Nat.lt_of_lt_of_le (Nat.lt_succ_self _) hle) hlatest

/-- Of the rows in the order of their ids, those past the last of the first `n` are the
    others. -/
theorem take_last {rows : List EventRow} (h : Increasing rows) {n : Nat} {last : EventRow}
    (hlast : (rows.take n).getLast? = some last) :
    rows.filter (fun r => last.id < r.id) = rows.drop n ∧ ∀ r ∈ rows.take n, r.id ≤ last.id := by
  obtain ⟨init, hinit⟩ := List.getLast?_eq_some_iff.mp hlast
  have hsplit : rows = (init ++ [last]) ++ rows.drop n := by
    rw [← hinit, List.take_append_drop]
  have hinc := h
  rw [hsplit] at hinc
  unfold Increasing at hinc
  simp only [List.map_append, List.pairwise_append, List.map_cons, List.map_nil] at hinc
  obtain ⟨⟨-, -, hbefore⟩, -, hafter⟩ := hinc
  have hle : ∀ r ∈ rows.take n, r.id ≤ last.id := by
    rw [hinit]
    intro r hr
    rcases List.mem_append.mp hr with hr | hr
    · exact Nat.le_of_lt (hbefore r.id (List.mem_map_of_mem hr) last.id (by simp))
    · rw [List.mem_singleton.mp hr]
  refine ⟨?_, hle⟩
  have hfirst : (rows.take n).filter (fun r => last.id < r.id) = [] := by
    rw [List.filter_eq_nil_iff]
    intro r hr
    simp [hle r hr]
  have hrest : (rows.drop n).filter (fun r => last.id < r.id) = rows.drop n := by
    rw [List.filter_eq_self]
    intro r hr
    simpa using hafter last.id (by simp) r.id (List.mem_map_of_mem hr)
  calc rows.filter (fun r => last.id < r.id)
      = (rows.take n ++ rows.drop n).filter (fun r => last.id < r.id) := by
        rw [List.take_append_drop]
    _ = rows.drop n := by rw [List.filter_append, hfirst, hrest, List.nil_append]

theorem eventsSince_eq {db : Database} (h : Increasing db.events) (sinceId limit : Nat) :
    eventsSince db sinceId limit = (db.events.filter fun r => sinceId < r.id).take limit := by
  have hinc := h.sublist (List.filter_sublist (p := fun r => decide (sinceId < r.id)))
  have hsorted : (db.events.filter fun r => sinceId < r.id).Pairwise (fun a b => a.id ≤ b.id) := by
    unfold Increasing at hinc
    rw [List.pairwise_map] at hinc
    exact hinc.imp Nat.le_of_lt
  rw [eventsSince, hsorted.insertionSort_eq]

/-! ## Steps -/

/-- What every step keeps: the table and what is sent or at hand have increasing ids, what
    is sent or at hand is at or below the mark, and what is sent, at hand and ahead is in
    the order it was inserted. -/
structure Kept (σ : State) : Prop where
  table : Increasing σ.store.db.events
  positive : ∀ r ∈ σ.store.db.events, 0 < r.id
  ids : Increasing (σ.sent ++ σ.batch)
  marked : σ.phase ≠ .over → ∀ r ∈ σ.sent ++ σ.batch, r.id ≤ σ.mark
  order : (σ.sent ++ σ.batch ++ σ.ahead).Sublist σ.inserted
  since : σ.since ≤ σ.inserted.length

/-- What steps keep that insert past the mark: of the rows up to it, those to be sent are
    sent or at hand. -/
def Passed (f : EventFilter) (σ : State) : Prop :=
  σ.phase ≠ .over → ∀ r ∈ σ.store.db.events, r.id ≤ σ.mark → r ∈ σ.inserted.drop σ.since →
    eventMatches r f = true → r ∈ σ.sent ∨ r ∈ σ.batch

theorem insertEvents_increasing (eng : Engine) (busy : Nat → Option Msg) (s : Store)
    (events : List Event) (h : Increasing s.db.events) :
    ∃ rows, (insertEvents eng busy s events).1.db.events = s.db.events ++ rows ∧
      Increasing (s.db.events ++ rows) ∧ ∀ r ∈ rows, latestEventId s.db < r.id := by
  rw [insertEvents_db]
  exact appendEvents_increasing _ s.db h

theorem deleteEventsOlderThan_sublist (busy : Option Msg) (s : Store) (cutoffMs : Int) :
    (deleteEventsOlderThan busy s cutoffMs).1.db.events.Sublist s.db.events := by
  unfold deleteEventsOlderThan Store.execute
  split
  · exact List.Sublist.refl _
  · exact List.filter_sublist

theorem ahead_eq {σ : State} (h : σ.phase ≠ .over) :
    σ.ahead = σ.store.db.events.filter fun r => σ.mark < r.id := by
  unfold State.ahead
  split
  · next hover => exact absurd hover h
  · rfl

theorem Kept.withTable {σ : State} (h : Kept σ) {store : Store} {inserted : List EventRow}
    (rows : List EventRow) (hrows : inserted = σ.inserted ++ rows)
    (htable : Increasing store.db.events)
    (hpositive : ∀ r ∈ store.db.events, 0 < r.id)
    (hsub : store.db.events.Sublist (σ.store.db.events ++ rows)) :
    Kept { σ with store, inserted } where
  table := htable
  positive := hpositive
  ids := h.ids
  marked := h.marked
  order := by
    have hahead : (State.ahead { σ with store, inserted }).Sublist (σ.ahead ++ rows) := by
      unfold State.ahead
      split
      · exact List.nil_sublist _
      · apply (hsub.filter _).trans
        rw [List.filter_append]
        exact (List.Sublist.refl _).append List.filter_sublist
    rw [hrows]
    apply ((List.Sublist.refl (σ.sent ++ σ.batch)).append hahead).trans
    rw [← List.append_assoc]
    exact h.order.append (List.Sublist.refl rows)
  since := by
    rw [hrows, List.length_append]
    exact Nat.le_trans h.since (Nat.le_add_right _ _)

theorem insert_kept {σ : State} (h : Kept σ) (busy : Nat → Option Msg) (events : List Event) :
    Kept (step eng formats f σ (.insert busy events)) := by
  obtain ⟨rows, heq, hinc, hids⟩ := insertEvents_increasing eng busy σ.store events h.table
  refine h.withTable rows ?_ ?_ ?_ ?_
  · rw [heq, List.drop_left]
  · rw [heq]
    exact hinc
  · rw [heq]
    intro r hr
    rcases List.mem_append.mp hr with hr | hr
    · exact h.positive r hr
    · exact Nat.lt_of_le_of_lt (Nat.zero_le _) (hids r hr)
  · rw [heq]

theorem sweep_kept {σ : State} (h : Kept σ) (busy : Option Msg) (cutoffMs : Int) :
    Kept (step eng formats f σ (.sweep busy cutoffMs)) := by
  have hsub := deleteEventsOlderThan_sublist busy σ.store cutoffMs
  refine h.withTable [] (by simp) (h.table.sublist hsub) ?_ (by simpa using hsub)
  intro r hr
  exact h.positive r (hsub.subset hr)

theorem connect_kept {σ : State} (h : Kept σ) : Kept (step eng formats f σ .connect) := by
  cases hphase : σ.phase with
  | created =>
    have hstep : step eng formats f σ .connect =
        { σ with phase := .polling (latestEventId σ.store.db), since := σ.inserted.length } := by
      simp only [step, hphase]
    have hbatch : σ.batch = [] := by simp only [State.batch, hphase]
    have hmark : σ.mark = 0 := by simp only [State.mark, hphase]
    have hmarked := h.marked (by simp [hphase])
    have hids := h.ids
    rw [hbatch, List.append_nil] at hmarked hids
    rw [hstep]
    refine ⟨h.table, h.positive, ?_, ?_, ?_, Nat.le_refl _⟩
    · simpa [State.batch] using hids
    · intro _ r hr
      have hzero := hmarked r (by simpa [State.batch] using hr)
      rw [hmark] at hzero
      exact Nat.le_trans hzero (Nat.zero_le _)
    · apply List.Sublist.trans ?_ h.order
      rw [hbatch]
      apply List.Sublist.append (List.Sublist.refl _)
      rw [ahead_eq (by simp), ahead_eq (by simp [hphase]), hmark]
      apply List.monotone_filter_right
      intro r hr
      simp only [decide_eq_true_eq] at hr ⊢
      exact Nat.lt_of_le_of_lt (Nat.zero_le _) hr
  | _ => simpa only [step, hphase] using h

theorem ahead_past {σ : State} {cursor : Nat} (hphase : σ.phase = .polling cursor) :
    ∀ r ∈ σ.ahead, cursor < r.id := by
  have hmark : σ.mark = cursor := by simp only [State.mark, hphase]
  intro r hr
  rw [ahead_eq (by simp [hphase]), hmark] at hr
  simpa using (List.mem_filter.mp hr).2

theorem query_eq (eng : Engine) (formats : Int → Bool) (f : EventFilter) {σ : State} (h : Kept σ)
    {cursor : Nat} (hphase : σ.phase = .polling cursor) :
    step eng formats f σ .query =
      { σ with phase := .holding cursor (σ.ahead.take STREAM_BATCH_LIMIT) } := by
  have hmark : σ.mark = cursor := by simp only [State.mark, hphase]
  have hahead : σ.ahead = σ.store.db.events.filter fun r => cursor < r.id := by
    rw [ahead_eq (by simp [hphase]), hmark]
  simp only [step, hphase, eventsSince_eq h.table, hahead]

/-- A query takes the first rows that are ahead, and the mark is past them. -/
theorem queried (eng : Engine) (formats : Int → Bool) (f : EventFilter) {σ : State} (h : Kept σ)
    {cursor : Nat} (hphase : σ.phase = .polling cursor) :
    cursor ≤ (step eng formats f σ .query).mark ∧
      (∀ r ∈ σ.ahead.take STREAM_BATCH_LIMIT, r.id ≤ (step eng formats f σ .query).mark) ∧
      (step eng formats f σ .query).ahead = σ.ahead.drop STREAM_BATCH_LIMIT := by
  have hmark : σ.mark = cursor := by simp only [State.mark, hphase]
  have hahead : σ.ahead = σ.store.db.events.filter fun r => cursor < r.id := by
    rw [ahead_eq (by simp [hphase]), hmark]
  have hinc : Increasing σ.ahead := by
    rw [hahead]
    exact h.table.sublist List.filter_sublist
  have hmark' : (step eng formats f σ .query).mark =
      ((σ.ahead.take STREAM_BATCH_LIMIT).getLast?.map EventRow.id).getD cursor := by
    rw [query_eq eng formats f h hphase]
    rfl
  have hahead' : (step eng formats f σ .query).ahead =
      σ.store.db.events.filter fun r => (step eng formats f σ .query).mark < r.id := by
    rw [query_eq eng formats f h hphase]
    rfl
  rw [hahead', hmark']
  cases hlast : (σ.ahead.take STREAM_BATCH_LIMIT).getLast? with
  | none =>
    -- nothing is ahead
    have htake : σ.ahead.take STREAM_BATCH_LIMIT = [] := List.getLast?_eq_none_iff.mp hlast
    have hnil : σ.ahead = [] := by
      rcases List.take_eq_nil_iff.mp htake with hzero | hnil
      · exact absurd hzero (by decide)
      · exact hnil
    simp only [Option.map_none, Option.getD_none]
    refine ⟨Nat.le_refl _, by simp [hnil], ?_⟩
    rw [← hahead, hnil, List.drop_nil]
  | some last =>
    obtain ⟨hdrop, hle⟩ := take_last hinc hlast
    have hmem : last ∈ σ.ahead := List.mem_of_mem_take (List.mem_of_getLast? hlast)
    have hpast := ahead_past hphase last hmem
    simp only [Option.map_some, Option.getD_some]
    refine ⟨Nat.le_of_lt hpast, hle, ?_⟩
    rw [← hdrop, hahead, List.filter_filter]
    apply List.filter_congr
    intro r _
    rw [Bool.eq_iff_iff, Bool.and_eq_true, decide_eq_true_eq, decide_eq_true_eq]
    omega

theorem query_kept {σ : State} (h : Kept σ) : Kept (step eng formats f σ .query) := by
  cases hphase : σ.phase with
  | polling cursor =>
    have hlive : σ.phase ≠ .over := by simp [hphase]
    have hbatch : σ.batch = [] := by simp only [State.batch, hphase]
    have hmark : σ.mark = cursor := by simp only [State.mark, hphase]
    have hmarked := h.marked hlive
    have hids := h.ids
    have horder := h.order
    rw [hbatch, List.append_nil] at hmarked hids horder
    have hinc : Increasing σ.ahead := by
      rw [ahead_eq hlive]
      exact h.table.sublist List.filter_sublist
    obtain ⟨hcursor, htaken, hahead⟩ := queried eng formats f h hphase
    have hstep := query_eq eng formats f h hphase
    have hnext : (step eng formats f σ .query).batch = σ.ahead.take STREAM_BATCH_LIMIT := by
      rw [hstep]
      rfl
    have hsent : (step eng formats f σ .query).sent = σ.sent := by rw [hstep]
    refine ⟨?_, ?_, ?_, ?_, ?_, ?_⟩
    · rw [hstep]
      exact h.table
    · rw [hstep]
      exact h.positive
    · rw [hsent, hnext]
      apply hids.append (hinc.sublist (List.take_sublist _ _))
      intro r hr r' hr'
      have hpast := ahead_past hphase r' (List.mem_of_mem_take hr')
      exact Nat.lt_of_le_of_lt (hmark ▸ hmarked r hr) hpast
    · intro _ r hr
      rw [hsent, hnext] at hr
      rcases List.mem_append.mp hr with hr | hr
      · exact Nat.le_trans (hmark ▸ hmarked r hr) hcursor
      · exact htaken r hr
    · rw [hsent, hnext, hahead, List.append_assoc, List.take_append_drop, hstep]
      exact horder
    · rw [hstep]
      exact h.since
  | _ => simpa only [step, hphase] using h

theorem deliver_cases (eng : Engine) (formats : Int → Bool) (f : EventFilter) {σ : State}
    {cursor : Nat} {batch : List EventRow}
    (hphase : σ.phase = .holding cursor batch) :
    (step eng formats f σ .deliver =
      { σ with phase := .polling σ.mark, sent := σ.sent ++ batch.filter (eventMatches · f) }) ∨
    step eng formats f σ .deliver = { σ with phase := .over } := by
  simp only [step, hphase, State.deliver, State.mark]
  cases hlast : batch.getLast? with
  | none =>
    have hnil : batch = [] := List.getLast?_eq_none_iff.mp hlast
    exact .inl (by simp [hnil])
  | some last =>
    simp only [Option.map_some, Option.getD_some]
    split
    · exact .inl rfl
    · exact .inr rfl

theorem over_kept {σ : State} (h : Kept σ) : Kept { σ with phase := .over } := by
  have hsub : (σ.sent ++ σ.batch).Sublist (σ.sent ++ σ.batch ++ σ.ahead) :=
    List.sublist_append_left _ _
  have hsent : σ.sent.Sublist (σ.sent ++ σ.batch) := List.sublist_append_left _ _
  refine ⟨h.table, h.positive, ?_, fun hover => absurd rfl hover, ?_, h.since⟩
  · simpa [State.batch] using h.ids.sublist hsent
  · simpa [State.batch, State.ahead] using (hsent.trans hsub).trans h.order

theorem deliver_kept {σ : State} (h : Kept σ) : Kept (step eng formats f σ .deliver) := by
  cases hphase : σ.phase with
  | holding cursor batch =>
    rcases deliver_cases eng formats f hphase with heq | heq
    · have hlive : σ.phase ≠ .over := by simp [hphase]
      have hbatch : σ.batch = batch := by simp only [State.batch, hphase]
      have hsub : (σ.sent ++ batch.filter (eventMatches · f)).Sublist (σ.sent ++ σ.batch) := by
        rw [hbatch]
        exact (List.Sublist.refl _).append List.filter_sublist
      rw [heq]
      refine ⟨h.table, h.positive, ?_, ?_, ?_, h.since⟩
      · simpa [State.batch] using h.ids.sublist hsub
      · intro _ r hr
        exact h.marked hlive r (hsub.subset (by simpa [State.batch] using hr))
      · -- the mark is where it was, and so is what is ahead
        apply List.Sublist.trans ?_ h.order
        rw [ahead_eq hlive]
        show ((σ.sent ++ batch.filter (eventMatches · f)) ++ [] ++
          σ.store.db.events.filter fun r : EventRow => σ.mark < r.id).Sublist _
        rw [List.append_nil]
        exact hsub.append (List.Sublist.refl _)
    · rw [heq]
      exact over_kept h
  | _ => simpa only [step, hphase] using h

theorem step_kept (eng : Engine) (formats : Int → Bool) (f : EventFilter) {σ : State}
    (h : Kept σ) (a : Action) : Kept (step eng formats f σ a) := by
  cases a with
  | insert busy events => exact insert_kept h busy events
  | sweep busy cutoffMs => exact sweep_kept h busy cutoffMs
  | connect => exact connect_kept h
  | query => exact query_kept h
  | deliver => exact deliver_kept h
  | leave => exact over_kept h

/-- A step that inserts past the mark, or does not insert, keeps what is passed. -/
theorem step_passed {σ : State} (h : Kept σ) (hpassed : Passed f σ) {a : Action}
    (hprompt : Prompt σ a) : Passed f (step eng formats f σ a) := by
  cases a with
  | insert busy events =>
    obtain ⟨rows, heq, -, hids⟩ := insertEvents_increasing eng busy σ.store events h.table
    have hinserted : (step eng formats f σ (.insert busy events)).inserted =
        σ.inserted ++ rows := by
      simp only [step, heq, List.drop_left]
    intro hlive r hr hmark hin hmatch
    have hold : ∀ r ∈ rows, ¬ r.id ≤ σ.mark := fun r hr hle =>
      absurd (hids r hr) (Nat.not_lt.mpr (Nat.le_trans hle hprompt))
    have htable : r ∈ σ.store.db.events := by
      simp only [step, heq] at hr
      exact (List.mem_append.mp hr).resolve_right fun hr => hold r hr hmark
    rw [hinserted] at hin
    have hsince : r ∈ σ.inserted.drop σ.since ++ rows := by
      rw [← List.drop_append_of_le_length h.since]
      exact hin
    exact hpassed hlive r htable hmark
      ((List.mem_append.mp hsince).resolve_right fun hr => hold r hr hmark) hmatch
  | sweep busy cutoffMs =>
    intro hlive r hr
    exact hpassed hlive r ((deleteEventsOlderThan_sublist busy σ.store cutoffMs).subset hr)
  | connect =>
    cases hphase : σ.phase with
    | created =>
      -- nothing has been inserted since
      intro _ r _ _ hin
      simp only [step, hphase, List.drop_length] at hin
      exact absurd hin List.not_mem_nil
    | _ => simpa only [step, hphase] using hpassed
  | query =>
    cases hphase : σ.phase with
    | polling cursor =>
      intro _ r hr hmark hin hmatch
      have hlive : σ.phase ≠ .over := by simp [hphase]
      have hcursor : σ.mark = cursor := by simp only [State.mark, hphase]
      have hbatch : σ.batch = [] := by simp only [State.batch, hphase]
      obtain ⟨-, -, hahead⟩ := queried eng formats f h hphase
      rw [query_eq eng formats f h hphase] at hr hin ⊢
      by_cases hold : r.id ≤ cursor
      · have hsent := hpassed hlive r hr (hcursor ▸ hold) hin hmatch
        rw [hbatch] at hsent
        exact .inl (hsent.resolve_right List.not_mem_nil)
      · -- a row that was ahead, and is not any more
        right
        have hmem : r ∈ σ.ahead := by
          rw [ahead_eq hlive, hcursor]
          exact List.mem_filter.mpr ⟨hr, by simpa using hold⟩
        rw [← List.take_append_drop STREAM_BATCH_LIMIT σ.ahead] at hmem
        refine (List.mem_append.mp hmem).resolve_right fun hdrop => ?_
        rw [← hahead, ahead_eq (by rw [query_eq eng formats f h hphase]; simp)] at hdrop
        have hpast := (List.mem_filter.mp hdrop).2
        rw [decide_eq_true_eq] at hpast
        exact absurd hmark (Nat.not_le.mpr hpast)
    | _ => simpa only [step, hphase] using hpassed
  | deliver =>
    cases hphase : σ.phase with
    | holding cursor batch =>
      have hlive : σ.phase ≠ .over := by simp [hphase]
      have hbatch : σ.batch = batch := by simp only [State.batch, hphase]
      rcases deliver_cases eng formats f hphase with heq | heq
      · rw [heq]
        intro _ r hr hmark hin hmatch
        left
        rcases hpassed hlive r hr hmark hin hmatch with hsent | hheld
        · exact List.mem_append_left _ hsent
        · rw [hbatch] at hheld
          exact List.mem_append_right _ (List.mem_filter.mpr ⟨hheld, hmatch⟩)
      · rw [heq]
        exact fun hover => absurd rfl hover
    | _ => simpa only [step, hphase] using hpassed
  | leave => exact fun hover => absurd rfl hover

/-! ## Runs -/

theorem kept_start : Kept {} ∧ Passed f {} := by
  refine ⟨⟨.nil, ?_, .nil, ?_, List.Sublist.refl _, Nat.le_refl _⟩, ?_⟩
  · intro r hr
    exact absurd hr List.not_mem_nil
  · intro _ r hr
    exact absurd hr List.not_mem_nil
  · intro _ r hr
    exact absurd hr List.not_mem_nil

/-- Where nothing that is to be sent has been passed by, a poll that finds nothing has
    missed nothing. -/
theorem complete_of_passed {σ : State} (h : Kept σ) (hpassed : Passed f σ) {cursor : Nat}
    (hphase : σ.phase = .polling cursor)
    (hnothing : eventsSince σ.store.db cursor STREAM_BATCH_LIMIT = []) : Complete f σ := by
  have hmark : σ.mark = cursor := by simp only [State.mark, hphase]
  have hbatch : σ.batch = [] := by simp only [State.batch, hphase]
  intro r hr hin hmatch
  have hle : r.id ≤ σ.mark := by
    rw [eventsSince_eq h.table] at hnothing
    rcases List.take_eq_nil_iff.mp hnothing with hzero | hnil
    · exact absurd hzero (by decide)
    · have hnot := List.filter_eq_nil_iff.mp hnil r hr
      rw [decide_eq_true_eq] at hnot
      rw [hmark]
      exact Nat.not_lt.mp hnot
  have hsent := hpassed (by simp [hphase]) r hr hle hin hmatch
  rw [hbatch] at hsent
  exact hsent.resolve_right List.not_mem_nil

theorem sent_of_kept {σ : State} (h : Kept σ) :
    Increasing σ.sent ∧ σ.sent.Sublist σ.inserted := by
  have hsub : σ.sent.Sublist (σ.sent ++ σ.batch) := List.sublist_append_left _ _
  exact ⟨h.ids.sublist hsub, (hsub.trans (List.sublist_append_left _ _)).trans h.order⟩

/-- In every run, whatever is inserted and deleted, no row is sent twice, and rows are sent
    in the order they were inserted. -/
theorem sent_in_order (eng : Engine) (formats : Int → Bool) (f : EventFilter)
    (actions : List Action) :
    Increasing (actions.foldl (step eng formats f) {}).sent ∧
      (actions.foldl (step eng formats f) {}).sent.Sublist
        (actions.foldl (step eng formats f) {}).inserted := by
  have hkept : Kept (actions.foldl (step eng formats f) {}) := by
    induction actions using List.reverseRecOn with
    | nil => exact (kept_start (f := f)).1
    | append_singleton actions a ih =>
      rw [List.foldl_append]
      exact step_kept eng formats f ih a
  exact sent_of_kept hkept

/-- In a run in which no event is inserted while the greatest id of the table is below the
    stream's mark, no row is sent twice, rows are sent in the order they were inserted, and
    every poll that finds nothing has missed nothing. -/
theorem tail_complete (eng : Engine) (formats : Int → Bool) (f : EventFilter)
    {actions : List Action} (h : Along (step eng formats f) Prompt {} actions) :
    Along (step eng formats f) (Promise eng formats f) {} actions := by
  refine h.of_invariant (fun σ => Kept σ ∧ Passed f σ) ?_ ?_ kept_start
  · intro σ a hσ hprompt
    exact ⟨step_kept eng formats f hσ.1 a, step_passed hσ.1 hσ.2 hprompt⟩
  · intro σ a hσ _
    obtain ⟨honce, horder⟩ := sent_of_kept (step_kept eng formats f hσ.1 a)
    exact ⟨honce, horder, fun cursor _ hphase => complete_of_passed hσ.1 hσ.2 hphase⟩

end Stream

/-- An event is inserted while the stream polls, and sent. -/
theorem tail_complete_sent :
    let actions := [Action.insert (fun _ => none) [.ofVerdict (lit "accepted")], .connect,
      .insert (fun _ => none) [.ofVerdict (lit "rejected")], .query, .deliver, .query]
    Along (step .plain (fun _ => true) {}) (Promise .plain (fun _ => true) {}) {} actions := by
  apply tail_complete
  refine ⟨?_, trivial, ?_, trivial, trivial, trivial, trivial⟩
  · unfold Prompt
    decide
  · unfold Prompt
    decide

/-- The newest row is swept, the next one gets its id, and the stream never sends it. -/
theorem tail_misses :
    ¬ Along (step .plain (fun _ => true) {}) (Promise .plain (fun _ => true) {}) {}
      [.insert (fun _ => none) [.ofVerdict (lit "accepted")], .connect, .sweep none 1,
        .insert (fun _ => none) [.ofVerdict (lit "rejected")], .query] := by
  intro h
  obtain ⟨-, -, -, -, hquery, -⟩ := h
  have hcomplete := hquery.complete 1 rfl rfl rfl
  have hsent := hcomplete (Event.row .plain (.ofVerdict (lit "rejected")) 1) (by decide) (by decide)
    (by decide)
  exact absurd hsent (by decide)

end tail
end HookGuard
