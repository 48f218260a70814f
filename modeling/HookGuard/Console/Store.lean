import HookGuard.Core.Exceptions
import HookGuard.Lib.Decimal
import HookGuard.Lib.Double
import HookGuard.Lib.Sqlite
import HookGuard.Lib.Timestamp
import HookGuard.Lib.Utf8

/- The Console's store (`hookguard_console/store`), as far as the events, their
   rollups and the settings go.

   A field of an event is any value JSON can hold; `eventRefusal` is what refuses
   its row: a value that cannot be bound, a `NOT NULL` or `CHECK` violation, or the
   database itself (`busy`). The connection is opened with `isolation_level=None`,
   which `Store` carries as a field, so the transaction around a batch undoes
   nothing: `insertEvents` and `upsertRollups` leave the rows before the first
   refused one (`insertEvents_db`, `upsertRollups_db`). A batch is therefore all or
   nothing exactly when no row is refused, or those before the first refused one
   change nothing: for events there are none, for rollups they add up to zero
   (`batch_all_or_nothing_iff`).

   A count of a rollup is an integer here. SQLite's is one as long as the sums fit 64
   bits, past which it goes on with a real number: what it stores is `Engine.bump`, and
   `Engine.bump_eq` is that the two agree where the sums fit. -/
namespace HookGuard
open Py

namespace store

/-! ## Events, rollups and the schema -/

/-- `models.Event`, as it is enqueued. -/
structure Event where
  receivedAt : Int
  path : Value
  provider : Value
  verdict : Value
  reason : Value
  upstreamStatus : Value
  latencyMs : Value
  bodyBytes : Value
  bodySha256 : Value
  remoteIp : Value

/-- The parameters after `received_at`. -/
def Event.fields (e : Event) : List Value :=
  [e.path, e.provider, e.verdict, e.reason, e.upstreamStatus, e.latencyMs, e.bodyBytes,
   e.bodySha256, e.remoteIp]

/-- `models.RollupDelta`. -/
structure RollupDelta where
  hour : Int
  provider : Value
  verdict : Value
  n : Int

def isInt64 (n : Int) : Bool := -2 ^ 63 ≤ n && n < 2 ^ 63

/-- The conversions of SQLite that are left open: how it writes a real number, the
    integer affinity of a column, and what such a column holds once an integer is added
    to it, of which only the sums that fit 64 bits are settled. -/
structure Engine where
  realText : PyFloat → Str
  realText_ne : ∀ x, realText x ≠ lit "accepted" ∧ realText x ≠ lit "rejected"
  integerAffinity : Sqlite.Value → Sqlite.Value
  integerAffinity_null : ∀ v, integerAffinity v = .null ↔ v = .null
  sum : Sqlite.Value → Int → Sqlite.Value
  sum_integer : ∀ n k, isInt64 (n + k) = true → sum (.integer n) k = .integer (n + k)

/-- The text affinity of a column. -/
def Engine.textAffinity (eng : Engine) : Sqlite.Value → Sqlite.Value
  | .null => .null
  | .integer n => .text (intStr n)
  | .real x => .text (eng.realText x)
  | .text s => .text s

/-- The exception that binding a value raises, if any. -/
def bindError : Value → Option Exc
  | .int n => if isInt64 n then none else some .overflowError
  | .str s => if s.all isScalar then none else some .unicodeEncodeError
  | .list _ => some (.sqliteError (msg "Error binding parameter: type 'list' is not supported"))
  | .dict _ => some (.sqliteError (msg "Error binding parameter: type 'dict' is not supported"))
  | _ => none

/-- The value a parameter is bound to; a NaN is bound as null. -/
def bound : Value → Sqlite.Value
  | .bool b => .integer (if b then 1 else 0)
  | .int n => .integer n
  | .float .nan => .null
  | .float x => .real x
  | .str s => .text s
  | _ => .null

/-- A row of `events`. -/
structure EventRow where
  id : Nat
  receivedAt : Int
  path : Sqlite.Value
  provider : Sqlite.Value
  verdict : Sqlite.Value
  reason : Sqlite.Value
  upstreamStatus : Sqlite.Value
  latencyMs : Sqlite.Value
  bodyBytes : Sqlite.Value
  bodySha256 : Sqlite.Value
  remoteIp : Sqlite.Value
  deriving DecidableEq

def EventRow.columns (r : EventRow) : List (String × Sqlite.Value) :=
  [("path", r.path), ("provider", r.provider), ("verdict", r.verdict), ("reason", r.reason),
   ("upstream_status", r.upstreamStatus), ("latency_ms", r.latencyMs),
   ("body_bytes", r.bodyBytes), ("body_sha256", r.bodySha256), ("remote_ip", r.remoteIp)]

/-- The primary key of `event_rollups`. -/
structure Bucket where
  hour : Int
  provider : Sqlite.Value
  verdict : Sqlite.Value
  deriving DecidableEq

structure Database where
  events : List EventRow := []
  rollups : Sqlite.Keyed Bucket Int := .empty
  settings : Sqlite.Keyed Str Str := .empty

/-- The id SQLite gives the next row: one past the greatest. -/
def Database.nextEventId (db : Database) : Nat := (db.events.map EventRow.id).foldl max 0 + 1

section Writes
variable (eng : Engine)

/-- The row an event is stored as. -/
def Event.row (e : Event) (id : Nat) : EventRow where
  id
  receivedAt := e.receivedAt
  path := eng.textAffinity (bound e.path)
  provider := eng.textAffinity (bound e.provider)
  verdict := eng.textAffinity (bound e.verdict)
  reason := eng.textAffinity (bound e.reason)
  upstreamStatus := eng.integerAffinity (bound e.upstreamStatus)
  latencyMs := eng.integerAffinity (bound e.latencyMs)
  bodyBytes := eng.integerAffinity (bound e.bodyBytes)
  bodySha256 := eng.textAffinity (bound e.bodySha256)
  remoteIp := eng.textAffinity (bound e.remoteIp)

/-- `CHECK (verdict IN ('accepted','rejected'))`. -/
def checkVerdict (verdict : Sqlite.Value) : Bool :=
  verdict == .text (lit "accepted") || verdict == .text (lit "rejected")

/-- What refuses a row of `events`, if anything does; `busy` is the database's own reason. -/
def eventRefusal (busy : Option Msg) (e : Event) : Option Exc :=
  match (Value.int e.receivedAt :: e.fields).findSome? bindError with
  | some err => some err
  | none =>
    match busy with
    | some m => some (.sqliteError m)
    | none =>
      match (e.row eng 0).columns.find? (fun c => c.2 == .null) with
      | some c => some (.sqliteError [.text (lit "NOT NULL constraint failed: events." ++ lit c.1)])
      | none =>
        if checkVerdict (e.row eng 0).verdict then none
        else some (.sqliteError
          (msg "CHECK constraint failed: verdict IN ('accepted','rejected')"))

/-- `INSERT INTO events`, of one event. -/
def insertEvent (busy : Option Msg) (e : Event) : Sqlite.Write Database Exc where
  refusal := eventRefusal eng busy e
  effect db := { db with events := db.events ++ [e.row eng db.nextEventId] }

def RollupDelta.bucket (d : RollupDelta) : Bucket :=
  ⟨d.hour, eng.textAffinity (bound d.provider), eng.textAffinity (bound d.verdict)⟩

/-- What refuses a row of `event_rollups`, if anything does. -/
def rollupRefusal (busy : Option Msg) (d : RollupDelta) : Option Exc :=
  match [.int d.hour, d.provider, d.verdict, .int d.n].findSome? bindError with
  | some err => some err
  | none =>
    match busy with
    | some m => some (.sqliteError m)
    | none =>
      if (d.bucket eng).provider == .null then
        some (.sqliteError (msg "NOT NULL constraint failed: event_rollups.provider"))
      else if (d.bucket eng).verdict == .null then
        some (.sqliteError (msg "NOT NULL constraint failed: event_rollups.verdict"))
      else none

/-- `INSERT INTO event_rollups ... ON CONFLICT DO UPDATE SET n = n + excluded.n`, of
    counts that fit 64 bits. -/
def upsertRollup (busy : Option Msg) (d : RollupDelta) : Sqlite.Write Database Exc where
  refusal := rollupRefusal eng busy d
  effect db := { db with rollups := db.rollups.alter (d.bucket eng) (fun n => n.getD 0 + d.n) }

end Writes

/-! ## What the table accepts -/

theorem isInt64_of_bounds {n : Int} (h : -2 ^ 63 ≤ n ∧ n < 2 ^ 63) : isInt64 n = true := by
  rw [isInt64, Bool.and_eq_true, decide_eq_true_eq, decide_eq_true_eq]
  exact h

theorem isInt64_unixMs (d : Datetime) : isInt64 d.unixMs = true := by
  have hbounds := d.unixMs_bounds
  exact isInt64_of_bounds ⟨by omega, by omega⟩

theorem bindError_unixMs (d : Datetime) : bindError (.int d.unixMs) = none := by
  rw [bindError, if_pos (isInt64_unixMs d)]

theorem pyInt_of_isInt64 {n : Int} (h : isInt64 n = true) : pyInt (intStr n) = some n := by
  rw [isInt64, Bool.and_eq_true, decide_eq_true_eq, decide_eq_true_eq] at h
  have hlength : (natStr n.natAbs).length ≤ 19 := natStr_length_le (by decide) (by omega)
  exact pyInt_intStr (hlength.trans (by decide))

/-- An event that satisfies the table's constraints: every field can be bound and is
    not null, and the verdict is one of the two. -/
structure Event.Storable (e : Event) : Prop where
  receivedAt : isInt64 e.receivedAt = true
  bind : ∀ v ∈ e.fields, bindError v = none
  notNull : ∀ v ∈ e.fields, bound v ≠ .null
  verdict : e.verdict = .str (lit "accepted") ∨ e.verdict = .str (lit "rejected")

theorem textAffinity_null {eng : Engine} {v : Sqlite.Value} :
    eng.textAffinity v = .null ↔ v = .null := by
  cases v <;> simp [Engine.textAffinity]

theorem intStr_ne {n : Int} {s : Str} {c : Nat} (hc : c ∈ s) (h : 57 < c) : intStr n ≠ s := by
  intro heq
  rw [← heq] at hc
  have hle := intStr_le c hc
  omega

/-- The check is of the text of the verdict: no number is written as one of the two. -/
theorem checkVerdict_iff {eng : Engine} {v : Value} :
    checkVerdict (eng.textAffinity (bound v)) = true ↔
      v = .str (lit "accepted") ∨ v = .str (lit "rejected") := by
  have hint : ∀ n : Int, intStr n ≠ lit "accepted" ∧ intStr n ≠ lit "rejected" := fun n =>
    ⟨intStr_ne (c := 101) (by decide) (by decide), intStr_ne (c := 101) (by decide) (by decide)⟩
  simp only [checkVerdict, Bool.or_eq_true, beq_iff_eq]
  cases v with
  | none => simp [bound, Engine.textAffinity]
  | bool b => simp [bound, Engine.textAffinity, hint]
  | int n => simp [bound, Engine.textAffinity, hint]
  | float x =>
    obtain ⟨h1, h2⟩ := eng.realText_ne x
    cases x <;> simp_all [bound, Engine.textAffinity]
  | str s => simp [bound, Engine.textAffinity]
  | list items => simp [bound, Engine.textAffinity]
  | dict items => simp [bound, Engine.textAffinity]

theorem columns_notNull_iff {eng : Engine} {e : Event} :
    (e.row eng 0).columns.find? (fun c => c.2 == .null) = none ↔
      ∀ v ∈ e.fields, bound v ≠ .null := by
  simp [EventRow.columns, Event.row, Event.fields, textAffinity_null, eng.integerAffinity_null]

theorem eventRefusal_none_iff {eng : Engine} {busy : Option Msg} {e : Event} :
    eventRefusal eng busy e = none ↔ busy = none ∧ e.Storable := by
  have hbind : (Value.int e.receivedAt :: e.fields).findSome? bindError = none ↔
      isInt64 e.receivedAt = true ∧ ∀ v ∈ e.fields, bindError v = none := by
    rw [List.findSome?_eq_none_iff, List.forall_mem_cons]
    simp [bindError]
  have hverdict : checkVerdict (e.row eng 0).verdict = true ↔ _ := checkVerdict_iff
  unfold eventRefusal
  refine ⟨?_, ?_⟩
  · intro h
    cases hb : (Value.int e.receivedAt :: e.fields).findSome? bindError with
    | some err => simp [hb] at h
    | none =>
      cases busy with
      | some m => simp [hb] at h
      | none =>
        cases hc : (e.row eng 0).columns.find? (fun c => c.2 == .null) with
        | some c => simp [hb, hc] at h
        | none =>
          cases hv : checkVerdict (e.row eng 0).verdict with
          | false => simp [hb, hc, hv] at h
          | true =>
            obtain ⟨h64, hfields⟩ := hbind.mp hb
            exact ⟨rfl, h64, hfields, columns_notNull_iff.mp hc, hverdict.mp hv⟩
  · intro h
    obtain ⟨rfl, h64, hfields, hnull, hv⟩ := h
    simp [hbind.mpr ⟨h64, hfields⟩, columns_notNull_iff.mpr hnull, hverdict.mpr hv]

/-! ## The store -/

/-- A store: its connection commits each statement, and has no transaction open. -/
structure Store where
  conn : Sqlite.Connection Database
  autocommit : conn.autocommit = true
  idle : conn.saved = none

/-- `connect`: `isolation_level=None`. -/
def connect (db : Database) : Store := ⟨⟨db, none, true⟩, rfl, rfl⟩

def Store.db (s : Store) : Database := s.conn.db

def Store.withDb (s : Store) (db : Database) : Store :=
  ⟨{ s.conn with db }, s.autocommit, s.idle⟩

@[simp] theorem Store.withDb_db (s : Store) (db : Database) : (s.withDb db).db = db := rfl

/-- `_executemany`: the rows in a transaction. -/
def Store.executemany (s : Store) (rows : List (Sqlite.Write Database Exc)) :
    Store × Except Exc Unit :=
  let r := s.conn.transaction (·.executemany rows)
  (⟨r.1, by
      simp only [r, Sqlite.transaction_autocommit s.autocommit s.idle]
      exact s.autocommit,
    by
      simp only [r, Sqlite.transaction_autocommit s.autocommit s.idle]
      exact s.idle⟩, r.2)

/-- `_execute`: one statement, committed if it is not refused. -/
def Store.execute (s : Store) (w : Sqlite.Write Database Exc) : Store × Except Exc Unit :=
  match w.refusal with
  | some e => (s, .error e)
  | none => (s.withDb (w.effect s.db), .ok ())

section Operations
variable (eng : Engine)

/-- `insert_events`; `busy` is the database's own refusal of each row. -/
def insertEvents (busy : Nat → Option Msg) (s : Store) (events : List Event) :
    Store × Except Exc Unit :=
  match events with
  | [] => (s, .ok ())
  | _ => s.executemany (events.mapIdx fun i e => insertEvent eng (busy i) e)

/-- `upsert_rollups`. -/
def upsertRollups (busy : Nat → Option Msg) (s : Store) (deltas : List RollupDelta) :
    Store × Except Exc Unit :=
  match deltas with
  | [] => (s, .ok ())
  | _ => s.executemany (deltas.mapIdx fun i d => upsertRollup eng (busy i) d)

/-- `set_setting`. -/
def setSetting (busy : Option Msg) (s : Store) (key value : Str) : Store × Except Exc Unit :=
  s.execute
    { refusal := busy.map Exc.sqliteError
      effect := fun db => { db with settings := db.settings.alter key (fun _ => value) } }

/-- `delete_events_older_than`. -/
def deleteEventsOlderThan (busy : Option Msg) (s : Store) (cutoffMs : Int) :
    Store × Except Exc Unit :=
  s.execute
    { refusal := match bindError (.int cutoffMs) with
        | some e => some e
        | none => busy.map Exc.sqliteError
      effect := fun db =>
        { db with events := db.events.filter (fun r => cutoffMs ≤ r.receivedAt) } }

end Operations

/-! ## What a batch leaves -/

section Batches
variable {eng : Engine} {busy : Nat → Option Msg}

theorem Store.executemany_eq (s : Store) (rows : List (Sqlite.Write Database Exc)) :
    s.executemany rows = (s.withDb (Sqlite.applied rows s.db), (Sqlite.run rows s.db).2) := by
  have h := Sqlite.transaction_autocommit s.autocommit s.idle rows
  simp only [Store.executemany, Store.withDb, Store.db, h]

/-- The events written before the first refused one, if any is. -/
abbrev admittedEvents (eng : Engine) (busy : Nat → Option Msg) (events : List Event) : List Event :=
  Sqlite.admitted (fun i e => eventRefusal eng (busy i) e) events

abbrev admittedDeltas (eng : Engine) (busy : Nat → Option Msg) (deltas : List RollupDelta) :
    List RollupDelta :=
  Sqlite.admitted (fun i d => rollupRefusal eng (busy i) d) deltas

/-- Events appended to the table, each under the next id. -/
def appendEvents (eng : Engine) (db : Database) (events : List Event) : Database :=
  events.foldl (fun db e => { db with events := db.events ++ [e.row eng db.nextEventId] }) db

/-- The increments of the buckets. -/
def increments (eng : Engine) (deltas : List RollupDelta) : List (Bucket × Int) :=
  deltas.map fun d => (d.bucket eng, d.n)

theorem insertEvents_eq (s : Store) (events : List Event) :
    insertEvents eng busy s events =
      (s.withDb (appendEvents eng s.db (admittedEvents eng busy events)),
        (insertEvents eng busy s events).2) := by
  cases events with
  | nil => rfl
  | cons e events =>
    have happ := Sqlite.applied_mapIdx
      (fun (e : Event) (db : Database) =>
        { db with events := db.events ++ [e.row eng db.nextEventId] })
      (fun i e => eventRefusal eng (busy i) e) (e :: events) s.db
    simp only [insertEvents, Store.executemany_eq]
    rw [Prod.mk.injEq]
    exact ⟨congrArg s.withDb happ, rfl⟩

theorem insertEvents_db (s : Store) (events : List Event) :
    (insertEvents eng busy s events).1.db =
      appendEvents eng s.db (admittedEvents eng busy events) := by
  rw [insertEvents_eq]
  rfl

theorem insertEvents_ok_iff (s : Store) (events : List Event) :
    (insertEvents eng busy s events).2 = .ok () ↔
      Sqlite.NoneRefused (fun i e => eventRefusal eng (busy i) e) events := by
  cases events with
  | nil => exact iff_of_true rfl fun i hi => absurd hi (by simp)
  | cons e events =>
    simp only [insertEvents, Store.executemany_eq]
    exact Sqlite.run_mapIdx_ok_iff
      (fun (e : Event) (db : Database) =>
        { db with events := db.events ++ [e.row eng db.nextEventId] })

theorem bump_foldl (deltas : List RollupDelta) (db : Database) :
    deltas.foldl (fun db d => { db with
      rollups := db.rollups.alter (d.bucket eng) (fun n => n.getD 0 + d.n) }) db =
      { db with rollups := db.rollups.bump (increments eng deltas) } := by
  induction deltas generalizing db with
  | nil => rfl
  | cons d deltas ih => exact ih _

theorem upsertRollups_db (s : Store) (deltas : List RollupDelta) :
    (upsertRollups eng busy s deltas).1.db =
      { s.db with
        rollups := s.db.rollups.bump (increments eng (admittedDeltas eng busy deltas)) } := by
  rw [← bump_foldl]
  cases deltas with
  | nil => rfl
  | cons d deltas =>
    simp only [upsertRollups, Store.executemany_eq, Store.withDb_db]
    exact Sqlite.applied_mapIdx
      (fun (d : RollupDelta) (db : Database) => { db with
        rollups := db.rollups.alter (d.bucket eng) (fun n => n.getD 0 + d.n) })
      (fun i d => rollupRefusal eng (busy i) d) (d :: deltas) s.db

theorem upsertRollups_ok_iff (s : Store) (deltas : List RollupDelta) :
    (upsertRollups eng busy s deltas).2 = .ok () ↔
      Sqlite.NoneRefused (fun i d => rollupRefusal eng (busy i) d) deltas := by
  cases deltas with
  | nil => exact iff_of_true rfl fun i hi => absurd hi (by simp)
  | cons d deltas =>
    simp only [upsertRollups, Store.executemany_eq]
    exact Sqlite.run_mapIdx_ok_iff
      (fun (d : RollupDelta) (db : Database) => { db with
        rollups := db.rollups.alter (d.bucket eng) (fun n => n.getD 0 + d.n) })

/-- A row but for its id. -/
def EventRow.content (r : EventRow) : EventRow := { r with id := 0 }

/-- The events are appended, each as its row, and nothing else changes. -/
theorem appendEvents_eq (eng : Engine) (events : List Event) (db : Database) :
    ∃ rows, appendEvents eng db events = { db with events := db.events ++ rows } ∧
      rows.map EventRow.content = events.map (fun e => e.row eng 0) := by
  induction events generalizing db with
  | nil => exact ⟨[], by simp [appendEvents], rfl⟩
  | cons e events ih =>
    obtain ⟨rows, heq, hrows⟩ := ih { db with events := db.events ++ [e.row eng db.nextEventId] }
    refine ⟨e.row eng db.nextEventId :: rows, ?_, ?_⟩
    · exact heq.trans (by simp)
    · rw [List.map_cons, List.map_cons, hrows]
      rfl

theorem insertEvents_content (s : Store) (events : List Event) :
    (insertEvents eng busy s events).1.db.events.map EventRow.content =
      s.db.events.map EventRow.content ++
        (admittedEvents eng busy events).map fun e => e.row eng 0 := by
  obtain ⟨rows, heq, hrows⟩ := appendEvents_eq eng (admittedEvents eng busy events) s.db
  rw [insertEvents_db, heq, List.map_append, hrows]

theorem mem_insertEvents {s : Store} {events : List Event} {r : EventRow}
    (h : r ∈ (insertEvents eng busy s events).1.db.events) :
    r ∈ s.db.events ∨ ∃ e ∈ admittedEvents eng busy events, r.content = e.row eng 0 := by
  obtain ⟨rows, heq, hrows⟩ := appendEvents_eq eng (admittedEvents eng busy events) s.db
  rw [insertEvents_db, heq, List.mem_append] at h
  refine h.imp_right ?_
  intro hr
  have hcontent : r.content ∈ rows.map EventRow.content := List.mem_map_of_mem hr
  rw [hrows] at hcontent
  obtain ⟨e, he, heq⟩ := List.mem_map.mp hcontent
  exact ⟨e, he, heq.symm⟩

theorem length_appendEvents (eng : Engine) (events : List Event) (db : Database) :
    (appendEvents eng db events).events.length = db.events.length + events.length := by
  obtain ⟨rows, heq, hrows⟩ := appendEvents_eq eng events db
  have hlen := congrArg List.length hrows
  rw [List.length_map, List.length_map] at hlen
  rw [heq, List.length_append, hlen]

/-! ## Counts of 64 bits -/

/-- What SQLite stores of a count: `n + excluded.n`, or `excluded.n` in a new row. -/
def Engine.counted (eng : Engine) (k : Int) : Option Sqlite.Value → Sqlite.Value
  | some n => eng.sum n k
  | none => .integer k

/-- The rollups as SQLite counts them. -/
def Engine.bump (eng : Engine) (rollups : Sqlite.Keyed Bucket Int) (ds : List (Bucket × Int)) :
    Sqlite.Keyed Bucket Sqlite.Value :=
  ds.foldl (fun t d => t.alter d.1 (eng.counted d.2)) (rollups.map .integer)

/-- Every count fits 64 bits, before the increments and after each. -/
def SumsFit (rollups : Sqlite.Keyed Bucket Int) (ds : List (Bucket × Int)) : Prop :=
  ∀ k ≤ ds.length, ∀ bucket ∈ (rollups.bump (ds.take k)).keys,
    isInt64 ((rollups.bump (ds.take k)).count bucket) = true

instance (rollups : Sqlite.Keyed Bucket Int) (ds : List (Bucket × Int)) :
    Decidable (SumsFit rollups ds) :=
  inferInstanceAs (Decidable (∀ k ≤ ds.length, ∀ bucket ∈ (rollups.bump (ds.take k)).keys,
    isInt64 ((rollups.bump (ds.take k)).count bucket) = true))

theorem SumsFit.tail {rollups : Sqlite.Keyed Bucket Int} {d : Bucket × Int}
    {ds : List (Bucket × Int)} (h : SumsFit rollups (d :: ds)) :
    SumsFit (rollups.alter d.1 fun n => n.getD 0 + d.2) ds :=
  fun k hk => h (k + 1) (Nat.succ_le_succ hk)

theorem SumsFit.head {rollups : Sqlite.Keyed Bucket Int} {d : Bucket × Int}
    {ds : List (Bucket × Int)} (h : SumsFit rollups (d :: ds)) :
    isInt64 (rollups.count d.1 + d.2) = true := by
  have hmem : d.1 ∈ (rollups.alter d.1 fun n => n.getD 0 + d.2).keys := by
    rw [Sqlite.Keyed.keys_alter]
    split
    · assumption
    · simp
  have hfit := h.tail 0 (Nat.zero_le _) d.1 hmem
  have hcount := Sqlite.Keyed.count_alter rollups d.1 d.2 d.1
  rw [if_pos rfl] at hcount
  rw [← hcount]
  exact hfit

/-- Where the sums fit, SQLite counts as `bump` does. -/
theorem Engine.bump_eq (eng : Engine) {ds : List (Bucket × Int)}
    {rollups : Sqlite.Keyed Bucket Int} (h : SumsFit rollups ds) :
    eng.bump rollups ds = (rollups.bump ds).map .integer := by
  induction ds generalizing rollups with
  | nil => rfl
  | cons d ds ih =>
    have hcounted : eng.counted d.2 ((rollups.get d.1).map .integer) =
        .integer ((rollups.get d.1).getD 0 + d.2) := by
      have hhead := h.head
      unfold Sqlite.Keyed.count at hhead
      cases hget : rollups.get d.1 with
      | none => simp [Engine.counted]
      | some n =>
        rw [hget] at hhead
        exact eng.sum_integer n d.2 hhead
    have hstep : (rollups.alter d.1 fun n => n.getD 0 + d.2).map Sqlite.Value.integer =
        (rollups.map .integer).alter d.1 (eng.counted d.2) := Sqlite.Keyed.map_alter _ hcounted
    calc eng.bump rollups (d :: ds)
        = eng.bump (rollups.alter d.1 fun n => n.getD 0 + d.2) ds := by
          unfold Engine.bump
          rw [List.foldl_cons, ← hstep]
      _ = ((rollups.alter d.1 fun n => n.getD 0 + d.2).bump ds).map .integer := ih h.tail

/-! ## All or nothing -/

/-- If the call raises, the database is as it was. -/
def AllOrNothing (before : Store) (after : Store × Except Exc Unit) : Prop :=
  after.2 ≠ .ok () → after.1.db = before.db

/-- Under an isolation level the same transaction would be, whatever the rows. -/
theorem isolated_all_or_nothing {c : Sqlite.Connection Database} (ha : c.autocommit = false)
    (hs : c.saved = none) (rows : List (Sqlite.Write Database Exc))
    (h : (c.transaction (·.executemany rows)).2 ≠ .ok ()) :
    (c.transaction (·.executemany rows)).1.db = c.db := by
  rw [Sqlite.transaction_isolated ha hs] at h ⊢
  rw [ne_eq, Sqlite.run_ok_iff] at h
  exact if_neg h

/-- A batch is all or nothing exactly when no row is refused, or the rows before the
    first refused one change nothing: of events, there are none; of rollups, each is
    of a bucket that is there, and together they add nothing to it. Of rollups as long as
    the sums fit 64 bits, and then the counts are those SQLite stores. -/
theorem batch_all_or_nothing_iff (eng : Engine) (busy : Nat → Option Msg) (s : Store)
    (events : List Event) (deltas : List RollupDelta) :
    (AllOrNothing s (insertEvents eng busy s events) ↔
      Sqlite.NoneRefused (fun i e => eventRefusal eng (busy i) e) events ∨
      Sqlite.FirstRefused (fun i e => eventRefusal eng (busy i) e) events) ∧
    (SumsFit s.db.rollups (increments eng (admittedDeltas eng busy deltas)) →
      (AllOrNothing s (upsertRollups eng busy s deltas) ↔
        Sqlite.NoneRefused (fun i d => rollupRefusal eng (busy i) d) deltas ∨
        ∀ d ∈ increments eng (admittedDeltas eng busy deltas), d.1 ∈ s.db.rollups.keys ∧
          Sqlite.Keyed.increment (increments eng (admittedDeltas eng busy deltas)) d.1 = 0) ∧
      (upsertRollups eng busy s deltas).1.db.rollups.map .integer =
        eng.bump s.db.rollups (increments eng (admittedDeltas eng busy deltas))) := by
  refine ⟨?_, ?_⟩
  · unfold AllOrNothing
    rw [ne_eq, insertEvents_ok_iff, insertEvents_db]
    by_cases hnone : Sqlite.NoneRefused (fun i e => eventRefusal eng (busy i) e) events
    · simp [hnone]
    · simp only [hnone, not_false_iff, forall_const, false_or]
      refine ⟨?_, ?_⟩
      · intro heq
        have hlen := length_appendEvents eng (admittedEvents eng busy events) s.db
        rw [heq] at hlen
        have hnil : admittedEvents eng busy events = [] :=
          List.length_eq_zero_iff.mp (by omega)
        rcases Sqlite.admitted_eq_nil_iff.mp hnil with rfl | hfirst
        · exact absurd (fun i hi => absurd hi (by simp)) hnone
        · exact hfirst
      · intro hfirst
        rw [admittedEvents, Sqlite.admitted_eq_nil_iff.mpr (.inr hfirst)]
        rfl
  · intro hfit
    refine ⟨?_, by rw [eng.bump_eq hfit, upsertRollups_db]⟩
    unfold AllOrNothing
    rw [ne_eq, upsertRollups_ok_iff, upsertRollups_db, ← Sqlite.Keyed.bump_eq_self_iff]
    by_cases hnone : Sqlite.NoneRefused (fun i d => rollupRefusal eng (busy i) d) deltas
    · simp [hnone]
    · simp only [hnone, not_false_iff, forall_const, false_or]
      refine ⟨?_, ?_⟩
      · intro heq
        exact congrArg Database.rollups heq
      · intro heq
        rw [heq]

end Batches

/-- Integers as they are, and no text for a real number; a sum past 64 bits is the
    nearest double. -/
def Engine.plain : Engine where
  realText _ := []
  realText_ne _ := ⟨by decide, by decide⟩
  integerAffinity v := v
  integerAffinity_null _ := .rfl
  sum
    | .integer n, k =>
      if isInt64 (n + k) then .integer (n + k) else .real (.num (nearestDouble (n + k)))
    | .real (.num x), k => .real (.num (nearestDouble (x + k)))
    | v, _ => v
  sum_integer _ _ h := if_pos h

/-- An event at the epoch of which only the verdict is given. -/
def Event.ofVerdict (verdict : Str) : Event :=
  ⟨0, .str [], .str [], .str verdict, .str [], .int 0, .int 0, .int 0, .str [], .str []⟩

/-- An event whose verdict is none of the two, behind one that is stored: the call
    raises, and the first is written. -/
theorem batch_half_written :
    ¬ AllOrNothing (connect {}) (insertEvents .plain (fun _ => none) (connect {})
      [.ofVerdict (lit "accepted"), .ofVerdict (lit "bogus")]) := by
  intro h
  have hdb := h (by decide)
  have hlen := congrArg (fun db => db.events.length) hdb
  exact absurd hlen (by decide)

/-- A count of one, in the hour of the epoch. -/
def counted : Store :=
  connect
    { rollups := (Sqlite.Keyed.empty.alter
        (Bucket.mk 0 (.text (lit "stripe")) (.text (lit "accepted"))) (fun _ => 1)) }

/-- The count is raised and lowered again before a delta without a provider is refused. -/
def evened : List RollupDelta :=
  [⟨0, .str (lit "stripe"), .str (lit "accepted"), 1⟩,
   ⟨0, .str (lit "stripe"), .str (lit "accepted"), -1⟩,
   ⟨0, .none, .str (lit "accepted"), 1⟩]

theorem batch_all_or_nothing_evened :
    (upsertRollups .plain (fun _ => none) counted evened).2 ≠ .ok () ∧
    AllOrNothing counted (upsertRollups .plain (fun _ => none) counted evened) :=
  ⟨by decide, ((batch_all_or_nothing_iff .plain (fun _ => none) counted [] evened).2
    (by decide)).1.mpr (.inr (by decide))⟩

end store
end HookGuard
