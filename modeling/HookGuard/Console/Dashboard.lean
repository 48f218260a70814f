import Mathlib.Data.List.Sort
import HookGuard.Console.Batcher
import HookGuard.Lib.Aggregate
import HookGuard.Lib.Double

/- The aggregates of the dashboard (`hookguard_console/store/events.py`): the counts of
   a window of hours, by hour and by provider, read from the rollups.

   `window_exact` is the result: after any run of batches whose writes all succeed, with
   sweeps anywhere among them, each of the three counts the events that were persisted,
   as they were handed over. The rollups' sums over hours and verdicts are the numbers
   of those events whatever the batches were (`Sums`, `step_sums`); a provider may be
   counted under another one that is the same key to Python, which a sum over the
   providers does not see. A bound that is no 64-bit integer is an `OverflowError`, and
   so the results hold of the windows that can be bound. -/
namespace HookGuard
open Py

namespace dashboard
open store batcher

def LATENCY_SAMPLE_LIMIT : Nat := 1000

inductive Verdict where
  | accepted
  | rejected
  deriving DecidableEq

def Verdict.text : Verdict → Sqlite.Value
  | .accepted => .text (lit "accepted")
  | .rejected => .text (lit "rejected")

/-- `models.ProviderStats`, and the counts of the other two results. -/
structure Counts where
  accepted : Int := 0
  rejected : Int := 0
  deriving DecidableEq

namespace Counts

def of (c : Counts) : Verdict → Int
  | .accepted => c.accepted
  | .rejected => c.rejected

def total (c : Counts) : Int := c.accepted + c.rejected

/-- `if verdict == "accepted": ... elif verdict == "rejected": ...`. -/
def assign (c : Counts) (verdict : Sqlite.Value) (n : Int) : Counts :=
  if verdict = Verdict.accepted.text then { c with accepted := n }
  else if verdict = Verdict.rejected.text then { c with rejected := n }
  else c

theorem assign_of (c : Counts) (verdict : Sqlite.Value) (n : Int) (v : Verdict) :
    (c.assign verdict n).of v = if verdict = v.text then n else c.of v := by
  have hne : Verdict.accepted.text ≠ Verdict.rejected.text := by decide
  unfold assign
  cases v with
  | accepted =>
    by_cases ha : verdict = Verdict.accepted.text
    · rw [if_pos ha, if_pos ha]
      rfl
    · rw [if_neg ha, if_neg ha]
      split <;> rfl
  | rejected =>
    by_cases ha : verdict = Verdict.accepted.text
    · have hr : verdict ≠ Verdict.rejected.text := by
        rw [ha]
        exact hne
      rw [if_pos ha, if_neg hr]
      rfl
    · rw [if_neg ha]
      split <;> rfl

end Counts

/-- `models.Summary`. -/
structure Summary extends Counts where
  acceptRate : ℚ := 0
  p50LatencyMs : Sqlite.Value := .integer 0

/-- `models.HourlyCounts`. -/
structure HourlyCounts extends Counts where
  hour : Int

/-! ## The queries -/

/-- `FROM event_rollups WHERE hour >= ? AND hour <= ?`. -/
def rowsWithin (db : Database) (startHour nowHour : Int) : List (Bucket × Int) :=
  db.rollups.rows.filter fun r => startHour ≤ r.1.hour && r.1.hour ≤ nowHour

/-- `SELECT key, SUM(n)` of these rows, `GROUP BY key`. -/
def selectTotals {L : Type} [DecidableEq L] (key : Bucket → L) (db : Database)
    (startHour nowHour : Int) : Except Exc (List (L × Int)) :=
  match [Value.int startHour, .int nowHour].findSome? bindError with
  | some e => .error e
  | none => .ok (Sqlite.groupSum key (rowsWithin db startHour nowHour))

/-- Where a number stands: below, among or above the rationals, and which. -/
def rank : Sqlite.Value → Int × ℚ
  | .integer n => (0, n)
  | .real (.num q) => (0, q)
  | .real (.inf negative) => (if negative then -1 else 1, 0)
  | _ => (0, 0)

def isNumber : Sqlite.Value → Bool
  | .integer _ | .real _ => true
  | _ => false

def textLe : Str → Str → Bool
  | [], _ => true
  | _ :: _, [] => false
  | c :: s, d :: t => c < d || c == d && textLe s t

/-- `sorted` of what a column holds: numbers are not compared with texts. -/
def sorted (values : List Sqlite.Value) : Except Exc (List Sqlite.Value) :=
  if values.all isNumber then
    .ok (values.insertionSort fun a b =>
      (rank a).1 < (rank b).1 ∨ (rank a).1 = (rank b).1 ∧ (rank a).2 ≤ (rank b).2)
  else if values.all fun v => v.asText.isSome then
    .ok (values.insertionSort fun a b => textLe (a.asText.getD []) (b.asText.getD []) = true)
  else .error (.typeError (msg "'<' not supported between instances of 'str' and 'int'"))

/-- `_p50_latency_since`: the index gives rows of one time in the order of their ids. -/
def p50LatencySince (db : Database) (sinceMs : Int) : Except Exc Sqlite.Value :=
  match bindError (.int sinceMs) with
  | some e => .error e
  | none =>
    let rows := ((db.events.filter fun r => sinceMs ≤ r.receivedAt).insertionSort
      fun a b => b.receivedAt ≤ a.receivedAt).take LATENCY_SAMPLE_LIMIT
    match sorted (rows.map EventRow.latencyMs) with
    | .error e => .error e
    | .ok latencies =>
      let mid := latencies.length / 2
      .ok ((if latencies.length % 2 = 1 then latencies[mid]? else latencies[mid - 1]?).getD
        (.integer 0))

/-- `summary_window`. -/
def summaryWindow (db : Database) (nowUnix hours : Int) : Except Exc Summary :=
  let nowHour := nowUnix / 3600
  let startHour := nowHour - hours + 1
  match selectTotals Bucket.verdict db startHour nowHour with
  | .error e => .error e
  | .ok rows =>
    let counts : Counts := rows.foldl (fun c r => c.assign r.1 r.2) {}
    match p50LatencySince db (startHour * 3600 * 1000) with
    | .error e => .error e
    | .ok p50 =>
      .ok { counts with
        acceptRate := if counts.total = 0 then 0
          else nearestDouble (counts.accepted / counts.total)
        p50LatencyMs := p50 }

/-- A dictionary of counts, from totals by key and verdict. -/
def splits {K : Type} [DecidableEq K] (rows : List ((K × Sqlite.Value) × Int)) :
    Sqlite.Keyed K Counts :=
  rows.foldl (fun t r => t.alter r.1.1 fun c => (c.getD {}).assign r.1.2 r.2) .empty

/-- `hourly_counts_window`. -/
def hourlyCountsWindow (db : Database) (nowUnix hours : Int) : Except Exc (List HourlyCounts) :=
  let nowHour := nowUnix / 3600
  let startHour := nowHour - hours + 1
  match selectTotals (fun b => (b.hour, b.verdict)) db startHour nowHour with
  | .error e => .error e
  | .ok rows =>
    let byHour := splits rows
    .ok ((List.range hours.toNat).map fun i : Nat =>
      { (byHour.get (startHour + i)).getD {} with hour := startHour + i })

/-- `provider_stats_window`. -/
def providerStatsWindow (db : Database) (nowUnix hours : Int) :
    Except Exc (Sqlite.Keyed Sqlite.Value Counts) :=
  let nowHour := nowUnix / 3600
  let startHour := nowHour - hours + 1
  match selectTotals (fun b => (b.provider, b.verdict)) db startHour nowHour with
  | .error e => .error e
  | .ok rows => .ok (splits rows)

/-! ## Totals by key and verdict -/

section Splits
variable {K : Type} [DecidableEq K]

theorem splits_concat (rows : List ((K × Sqlite.Value) × Int)) (r : (K × Sqlite.Value) × Int) :
    splits (rows ++ [r]) =
      (splits rows).alter r.1.1 fun c => (c.getD {}).assign r.1.2 r.2 := by
  simp [splits, List.foldl_append]

theorem get_splits {rows : List ((K × Sqlite.Value) × Int)} (h : (rows.map Prod.fst).Nodup)
    (k : K) (v : Verdict) :
    (((splits rows).get k).getD {}).of v = (rows.lookup (k, v.text)).getD 0 := by
  induction rows using List.reverseRecOn with
  | nil => cases v <;> rfl
  | append_singleton rows r ih =>
    have hnone := Sqlite.lookup_before h
    rw [List.map_append, List.nodup_append] at h
    have ih := ih h.1
    obtain ⟨⟨k₀, verdict⟩, n⟩ := r
    rw [splits_concat, Sqlite.Keyed.get_alter, List.lookup_append]
    by_cases hk : k = k₀ ∧ verdict = v.text
    · -- the row of the key and the verdict: there was none before
      obtain ⟨rfl, rfl⟩ := hk
      simp [hnone, Counts.assign_of]
    · have hlast : List.lookup (k, v.text) [((k₀, verdict), n)] = none := by
        apply Sqlite.lookup_of_not_mem
        simp only [List.map_cons, List.map_nil, List.mem_singleton, Prod.mk.injEq]
        intro heq
        exact hk ⟨heq.1, heq.2.symm⟩
      rw [hlast, Option.or_none, ← ih]
      by_cases hk₀ : k = k₀
      · subst hk₀
        have hverdict : verdict ≠ v.text := fun heq => hk ⟨rfl, heq⟩
        simp [Counts.assign_of, hverdict]
      · simp [hk₀]

theorem sum_splits {rows : List ((K × Sqlite.Value) × Int)} (h : (rows.map Prod.fst).Nodup)
    (v : Verdict) :
    ((splits rows).rows.map fun r => r.2.of v).sum =
      Sqlite.sumWhere (fun kv => decide (kv.2 = v.text)) rows := by
  induction rows using List.reverseRecOn with
  | nil => rfl
  | append_singleton rows r ih =>
    have hnone := Sqlite.lookup_before h
    rw [List.map_append, List.nodup_append] at h
    obtain ⟨⟨k, verdict⟩, n⟩ := r
    have hsum : Sqlite.sumWhere (fun kv : K × Sqlite.Value => decide (kv.2 = v.text))
        (rows ++ [((k, verdict), n)]) =
        Sqlite.sumWhere (fun kv => decide (kv.2 = v.text)) rows +
          if verdict = v.text then n else 0 := by
      unfold Sqlite.sumWhere
      by_cases hv : verdict = v.text <;> simp [List.filter_append, hv]
    have hzero : Counts.of {} v = 0 := by cases v <;> rfl
    have halter := Sqlite.sum_alterRows (fun c => Counts.of c v) hzero k
      (fun c => (c.getD {}).assign verdict n) (splits rows).rows
    have hget : (((splits rows).rows.lookup k).getD {}).of v =
        (rows.lookup (k, v.text)).getD 0 := get_splits h.1 k v
    rw [splits_concat, hsum, ← ih h.1]
    refine halter.trans ?_
    rw [Counts.assign_of, hget]
    by_cases hv : verdict = v.text
    · -- the key had no total of this verdict
      subst hv
      simp [hnone]
    · simp [hv]

end Splits

/-! ## The events of a run -/

/-- The events handed to be persisted. -/
def persisted (actions : List Action) : List Event :=
  actions.flatMap fun
    | .persist _ pending => pending
    | .sweep _ _ => []

def isVerdict (v : Verdict) (e : Event) : Bool :=
  match e.verdict with
  | .str s => decide (.text s = v.text)
  | _ => false

/-- The events of a verdict from the start of one hour to that of another. -/
def countIn (events : List Event) (v : Verdict) (startHour endHour : Int) : Int :=
  events.countP fun e =>
    startHour * 3600000 ≤ e.receivedAt && e.receivedAt < endHour * 3600000 && isVerdict v e

/-- The hours of a window are 64-bit integers. -/
def HoursFit (nowUnix hours : Int) : Prop :=
  isInt64 (nowUnix / 3600) = true ∧ isInt64 (nowUnix / 3600 - hours + 1) = true

/-- Its first millisecond is one, too. -/
def SinceFits (nowUnix hours : Int) : Prop :=
  isInt64 ((nowUnix / 3600 - hours + 1) * 3600 * 1000) = true

section Runs
variable {eng : Engine}

/-- A batch whose writes all succeed. -/
def Written (eng : Engine) : Action → Prop
  | .persist busy pending =>
    Sqlite.NoneRefused (fun i e => eventRefusal eng (busy.insert i) e) pending ∧
    (∀ deltas, rollupDeltas pending = .ok deltas →
      Sqlite.NoneRefused (fun i d => rollupRefusal eng (busy.rollup i) d) deltas) ∧
    busy.setting = none
  | .sweep _ _ => True

/-- Of a verdict, and of the hours that satisfy `p`. -/
def ofHours (v : Verdict) (p : Int → Bool) (b : Bucket) : Bool :=
  p b.hour && decide (b.verdict = v.text)

def eventOfHours (v : Verdict) (p : Int → Bool) (e : Event) : Bool :=
  p (hourBucket e.receivedAt) && isVerdict v e

/-- Over the hours of any set, the rollups of a verdict add up to its events. -/
def Sums (σ : State) (events : List Event) : Prop :=
  ∀ v p, Sqlite.sumWhere (ofHours v p) σ.store.db.rollups.rows =
    events.countP (eventOfHours v p)

theorem isVerdict_iff (eng : Engine) {e : Event} {s : Str} (h : e.verdict = .str s) (v : Verdict) :
    isVerdict v e = decide (eng.textAffinity (bound e.verdict) = v.text) := by
  rw [isVerdict, h]
  rfl

theorem ofHours_bucket (eng : Engine) {d : RollupDelta} {e : Event} {s : Str}
    (hhour : d.hour = hourBucket e.receivedAt) (hverdict : d.verdict = e.verdict)
    (h : e.verdict = .str s) (v : Verdict) (p : Int → Bool) :
    ofHours v p (d.bucket eng) = eventOfHours v p e := by
  simp only [ofHours, eventOfHours, RollupDelta.bucket, hhour, hverdict, isVerdict_iff eng h]

theorem countEvent_sum {all : List Event} (hstr : ∀ e ∈ all, ∃ s, e.verdict = .str s) {e : Event}
    (he : e ∈ all) (v : Verdict) (p : Int → Bool) {deltas : List RollupDelta}
    (hof : ∀ d ∈ deltas, ∃ x ∈ all, IsOf d x) :
    Sqlite.sumWhere (ofHours v p) (increments eng (countEvent e deltas)) =
      Sqlite.sumWhere (ofHours v p) (increments eng deltas) +
        if eventOfHours v p e then 1 else 0 := by
  obtain ⟨s, hs⟩ := hstr e he
  induction deltas with
  | nil =>
    have hb : ofHours v p (RollupDelta.bucket eng
        ⟨hourBucket e.receivedAt, e.provider, e.verdict, 1⟩) = eventOfHours v p e :=
      ofHours_bucket eng rfl rfl hs v p
    simp [countEvent, increments, Sqlite.sumWhere_cons, hb]
  | cons d deltas ih =>
    have hrest := ih fun x hx => hof x (by simp [hx])
    simp only [increments] at hrest
    rw [countEvent]
    split
    · next hkey =>
      -- the verdicts are texts, and one key: they are the same
      obtain ⟨x, hx, hx'⟩ := hof d (by simp)
      obtain ⟨s', hs'⟩ := hstr x hx
      have hverdict : d.verdict = e.verdict := by
        have heq := hkey.2.2
        rw [hx'.2.2, hs', hs] at heq
        rw [hx'.2.2, hs', hs, Key.str.inj heq]
      have hb := ofHours_bucket eng hkey.1 hverdict hs v p
      have hb' : ofHours v p (RollupDelta.bucket eng { d with n := d.n + 1 }) =
        eventOfHours v p e := hb
      simp only [increments, List.map_cons, Sqlite.sumWhere_cons, hb, hb']
      split <;> omega
    · simp only [increments, List.map_cons, Sqlite.sumWhere_cons, hrest]
      omega

theorem foldl_sum (eng : Engine) {all : List Event}
    (hstr : ∀ e ∈ all, ∃ s, e.verdict = .str s) (v : Verdict) (p : Int → Bool)
    {events : List Event} {deltas : List RollupDelta}
    (hsub : ∀ e ∈ events, e ∈ all) (hof : ∀ d ∈ deltas, ∃ x ∈ all, IsOf d x) :
    Sqlite.sumWhere (ofHours v p)
        (increments eng (events.foldl (fun deltas e => countEvent e deltas) deltas)) =
      Sqlite.sumWhere (ofHours v p) (increments eng deltas) +
        events.countP (eventOfHours v p) := by
  induction events generalizing deltas with
  | nil => simp
  | cons e events ih =>
    have he : e ∈ all := hsub e (by simp)
    have hrest : ∀ x ∈ events, x ∈ all := fun x hx => hsub x (by simp [hx])
    rw [List.foldl_cons, ih hrest (countEvent_isOf he hof), countEvent_sum hstr he v p hof,
      List.countP_cons]
    split <;> push_cast <;> omega

theorem rollupDeltas_sum {events : List Event} {deltas : List RollupDelta}
    (hstr : ∀ e ∈ events, ∃ s, e.verdict = .str s) (h : rollupDeltas events = .ok deltas)
    (v : Verdict) (p : Int → Bool) :
    Sqlite.sumWhere (ofHours v p) (increments eng deltas) =
      events.countP (eventOfHours v p) := by
  unfold rollupDeltas at h
  split at h
  · cases h
  · have hnone : ∀ d ∈ ([] : List RollupDelta), ∃ x ∈ events, IsOf d x := by simp
    have hfold := foldl_sum eng hstr v p (fun _ he => he) hnone
    rw [Except.ok.inj h] at hfold
    simpa [increments] using hfold

theorem persisted_append (actions : List Action) (a : Action) :
    persisted (actions ++ [a]) = persisted actions ++ persisted [a] :=
  List.flatMap_append

theorem step_sums {σ : State} {events : List Event} {a : Action} (h : Sums σ events)
    (hwritten : Written eng a) : Sums (step eng σ a) (events ++ persisted [a]) := by
  intro v p
  cases a with
  | sweep busy cutoffMs =>
    have hnone : persisted [.sweep busy cutoffMs] = [] := rfl
    simp only [step, deleteEventsOlderThan_rollups, hnone, List.append_nil]
    exact h v p
  | persist busy pending =>
    obtain ⟨hnone, hrollups, -⟩ := hwritten
    have hstorable := storable_of_noneRefused hnone
    obtain ⟨deltas, hd⟩ := rollupDeltas_ok hstorable
    have hstr : ∀ e ∈ pending, ∃ s, e.verdict = .str s := by
      intro e he
      rcases (hstorable e he).verdict with h | h
      · exact ⟨_, h⟩
      · exact ⟨_, h⟩
    have hthese : persisted [.persist busy pending] = pending := by simp [persisted]
    simp only [step]
    rw [persist_rollups hnone hd (hrollups deltas hd), Sqlite.sumWhere_bump, h v p,
      rollupDeltas_sum hstr hd, hthese, List.countP_append]
    push_cast
    rfl

theorem run_append (actions : List Action) (a : Action) :
    run eng (actions ++ [a]) = step eng (run eng actions) a := by
  simp [run, List.foldl_append]

/-- After a run of batches written whole, the rollups add up to its events. -/
theorem run_sums {actions : List Action} (hwritten : ∀ a ∈ actions, Written eng a) :
    Sums (run eng actions) (persisted actions) := by
  induction actions using List.reverseRecOn with
  | nil => exact fun _ _ => rfl
  | append_singleton actions a ih =>
    rw [run_append, persisted_append]
    exact step_sums (ih fun b hb => hwritten b (by simp [hb])) (hwritten a (by simp))

/-- The latencies in the table are numbers. -/
def Numbers (σ : State) : Prop := ∀ r ∈ σ.store.db.events, isNumber r.latencyMs = true

theorem step_numbers {σ : State} {a : Action} (h : Numbers σ)
    (hlatency : ∀ e ∈ persisted [a], isNumber (e.row eng 0).latencyMs = true) :
    Numbers (step eng σ a) := by
  intro r hr
  cases a with
  | sweep busy cutoffMs =>
    simp only [step, deleteEventsOlderThan, Store.execute] at hr
    split at hr
    · exact h r hr
    · exact h r (List.mem_of_mem_filter hr)
  | persist busy pending =>
    simp only [step, persist_events] at hr
    obtain hr | ⟨e, he, heq⟩ := mem_insertEvents hr
    · exact h r hr
    · -- a new row is that of an admitted event, but for its id
      have hpending : e ∈ pending := (Sqlite.admitted_initial _ pending).subset he
      show isNumber r.content.latencyMs = true
      rw [heq]
      exact hlatency e (by simpa [persisted] using hpending)

theorem run_numbers {actions : List Action}
    (hlatency : ∀ e ∈ persisted actions, isNumber (e.row eng 0).latencyMs = true) :
    Numbers (run eng actions) := by
  induction actions using List.reverseRecOn with
  | nil =>
    intro r hr
    simp [run, connect, Store.db] at hr
  | append_singleton actions a ih =>
    rw [persisted_append] at hlatency
    rw [run_append]
    exact step_numbers (ih fun e he => hlatency e (by simp [he]))
      fun e he => hlatency e (by simp [he])

end Runs

/-! ## Counting a window -/

theorem countIn_split (events : List Event) (v : Verdict) {a b c : Int} (hab : a ≤ b)
    (hbc : b ≤ c) : countIn events v a c = countIn events v a b + countIn events v b c := by
  induction events with
  | nil => rfl
  | cons e events ih =>
    simp only [countIn, List.countP_cons, Bool.and_eq_true, decide_eq_true_eq] at ih ⊢
    by_cases hv : isVerdict v e = true
    · simp only [hv, and_true]
      split <;> split <;> split <;> omega
    · simp only [hv, and_false, if_false, Bool.false_eq_true]
      omega

theorem countIn_empty (events : List Event) (v : Verdict) {a b : Int} (h : b ≤ a) :
    countIn events v a b = 0 := by
  have hnone : events.countP (fun e => a * 3600000 ≤ e.receivedAt &&
      e.receivedAt < b * 3600000 && isVerdict v e) = 0 := by
    rw [List.countP_eq_zero]
    intro e _
    simp only [Bool.and_eq_true, decide_eq_true_eq]
    omega
  rw [countIn, hnone]
  rfl

theorem sum_countIn (events : List Event) (v : Verdict) (start : Int) (n : Nat) :
    ((List.range n).map fun i : Nat => countIn events v (start + i) (start + i + 1)).sum =
      countIn events v start (start + n) := by
  induction n with
  | zero => exact (countIn_empty events v (by simp)).symm
  | succ n ih =>
    have hlast : start + n ≤ start + n + 1 := by omega
    have hsplit := countIn_split events v (Int.le_add_of_nonneg_right (Int.natCast_nonneg n)) hlast
    rw [List.range_succ, List.map_append, List.sum_append, ih, Nat.cast_succ, ← Int.add_assoc,
      hsplit]
    simp

theorem countP_hours (events : List Event) (v : Verdict) (p : Int → Bool) (a b : Int)
    (hp : ∀ h, p h = (decide (a ≤ h) && decide (h < b))) :
    (events.countP (eventOfHours v p) : Int) = countIn events v a b := by
  rw [countIn]
  congr 1
  apply List.countP_congr
  intro e _
  simp only [eventOfHours, hp, hourBucket, Bool.and_eq_true, decide_eq_true_eq]
  have htime : (a ≤ e.receivedAt / 1000 / 3600 ∧ e.receivedAt / 1000 / 3600 < b) ↔
      (a * 3600000 ≤ e.receivedAt ∧ e.receivedAt < b * 3600000) := by omega
  rw [htime]

/-! ## The three results -/

section Windows
variable {σ : State} {events : List Event} {nowUnix hours : Int}

theorem selectTotals_ok {L : Type} [DecidableEq L] (key : Bucket → L) (db : Database)
    (hfit : HoursFit nowUnix hours) :
    selectTotals key db (nowUnix / 3600 - hours + 1) (nowUnix / 3600) =
      .ok (Sqlite.groupSum key
        (rowsWithin db (nowUnix / 3600 - hours + 1) (nowUnix / 3600))) := by
  simp [selectTotals, bindError, hfit.1, hfit.2]

theorem sumWhere_window {L : Type} [DecidableEq L] (h : Sums σ events) (key : Bucket → L)
    (start nowHour : Int) (v : Verdict) (p : L → Bool) (q : Int → Bool)
    (hkey : ∀ b, p (key b) = ofHours v q b) :
    Sqlite.sumWhere p (Sqlite.groupSum key (rowsWithin σ.store.db start nowHour)) =
      events.countP (eventOfHours v fun x => start ≤ x && x ≤ nowHour && q x) := by
  rw [Sqlite.sumWhere_groupSum, ← h v]
  refine (Sqlite.sumWhere_filter _
    (fun b : Bucket => decide (start ≤ b.hour) && decide (b.hour ≤ nowHour)) _).trans ?_
  apply Sqlite.sumWhere_congr
  intro b
  simp only [hkey, ofHours, Bool.and_assoc]

theorem foldl_assign {rows : List (Sqlite.Value × Int)} (h : (rows.map Prod.fst).Nodup)
    (v : Verdict) :
    (rows.foldl (fun c r => c.assign r.1 r.2) ({} : Counts)).of v =
      (rows.lookup v.text).getD 0 := by
  induction rows using List.reverseRecOn with
  | nil => cases v <;> rfl
  | append_singleton rows r ih =>
    have hnone := Sqlite.lookup_before h
    rw [List.map_append, List.nodup_append] at h
    have ih := ih h.1
    rw [List.foldl_append, List.lookup_append, List.foldl_cons, List.foldl_nil, Counts.assign_of]
    obtain ⟨verdict, n⟩ := r
    by_cases hv : verdict = v.text
    · subst hv
      simp [hnone]
    · have hlast : List.lookup v.text [(verdict, n)] = none :=
        Sqlite.lookup_of_not_mem (by simpa using Ne.symm hv)
      rw [if_neg hv, ih, hlast, Option.or_none]

theorem p50LatencySince_ok (hnumbers : Numbers σ) {sinceMs : Int} (hfit : isInt64 sinceMs = true) :
    ∃ p50, p50LatencySince σ.store.db sinceMs = .ok p50 := by
  have hbind : bindError (.int sinceMs) = none := by simp [bindError, hfit]
  have hall : ((((σ.store.db.events.filter fun r => sinceMs ≤ r.receivedAt).insertionSort
      fun a b => b.receivedAt ≤ a.receivedAt).take LATENCY_SAMPLE_LIMIT).map
      EventRow.latencyMs).all isNumber = true := by
    rw [List.all_eq_true]
    intro x hx
    obtain ⟨r, hr, rfl⟩ := List.mem_map.mp hx
    have hmem := (List.mem_insertionSort _).mp (List.mem_of_mem_take hr)
    exact hnumbers r (List.mem_of_mem_filter hmem)
  simp only [p50LatencySince, hbind, sorted, hall, if_true]
  exact ⟨_, rfl⟩

/-- The total of a verdict counts its events. -/
theorem summary_counts (h : Sums σ events) (start nowHour : Int) (v : Verdict) :
    ((Sqlite.groupSum Bucket.verdict (rowsWithin σ.store.db start nowHour)).foldl
      (fun c r => c.assign r.1 r.2) ({} : Counts)).of v =
      countIn events v start (nowHour + 1) := by
  have hnodup := Sqlite.groupSum_nodup Bucket.verdict (rowsWithin σ.store.db start nowHour)
  have hwindow := sumWhere_window h Bucket.verdict start nowHour v
    (fun verdict => decide (verdict = v.text)) (fun _ => true) (fun _ => rfl)
  rw [foldl_assign hnodup, ← Sqlite.sumWhere_key hnodup, hwindow]
  apply countP_hours
  intro x
  simp only [Bool.and_true, Int.lt_add_one_iff]

theorem hour_counts (h : Sums σ events) (start nowHour hour : Int) (hstart : start ≤ hour)
    (hnow : hour ≤ nowHour) (v : Verdict) :
    (((splits (Sqlite.groupSum (fun b : Bucket => (b.hour, b.verdict))
      (rowsWithin σ.store.db start nowHour))).get hour).getD {}).of v =
      countIn events v hour (hour + 1) := by
  have hnodup := Sqlite.groupSum_nodup (fun b : Bucket => (b.hour, b.verdict))
    (rowsWithin σ.store.db start nowHour)
  have hwindow := sumWhere_window h (fun b => (b.hour, b.verdict)) start nowHour v
    (fun kv => decide (kv = (hour, v.text))) (fun x => decide (x = hour))
    (fun b => by simp [ofHours, Prod.mk.injEq])
  rw [get_splits hnodup, ← Sqlite.sumWhere_key hnodup, hwindow]
  apply countP_hours
  intro x
  rw [Bool.eq_iff_iff]
  simp only [Bool.and_eq_true, decide_eq_true_eq]
  omega

theorem provider_counts (h : Sums σ events) (start nowHour : Int) (v : Verdict) :
    ((splits (Sqlite.groupSum (fun b : Bucket => (b.provider, b.verdict))
      (rowsWithin σ.store.db start nowHour))).rows.map fun r => r.2.of v).sum =
      countIn events v start (nowHour + 1) := by
  have hwindow := sumWhere_window h (fun b => (b.provider, b.verdict)) start nowHour v
    (fun kv => decide (kv.2 = v.text)) (fun _ => true) (fun _ => rfl)
  rw [sum_splits (Sqlite.groupSum_nodup _ _), hwindow]
  apply countP_hours
  intro x
  simp only [Bool.and_true, Int.lt_add_one_iff]

theorem summaryWindow_exact (h : Sums σ events) (hnumbers : Numbers σ)
    (hfit : HoursFit nowUnix hours) (hsince : SinceFits nowUnix hours) :
    ∃ summary, summaryWindow σ.store.db nowUnix hours = .ok summary ∧ ∀ v, summary.of v =
      countIn events v (nowUnix / 3600 - hours + 1) (nowUnix / 3600 + 1) := by
  obtain ⟨p50, hp50⟩ := p50LatencySince_ok hnumbers hsince
  simp only [summaryWindow, selectTotals_ok Bucket.verdict _ hfit, hp50]
  exact ⟨_, rfl, summary_counts h _ _⟩

/-- There is a bucket for each hour, which counts its events; together they count those of
    the window. -/
theorem hourlyCountsWindow_exact (h : Sums σ events) (hfit : HoursFit nowUnix hours) :
    ∃ buckets, hourlyCountsWindow σ.store.db nowUnix hours = .ok buckets ∧
      buckets.map HourlyCounts.hour =
        (List.range hours.toNat).map (fun i : Nat => nowUnix / 3600 - hours + 1 + i) ∧
      ∀ v, (∀ b ∈ buckets, b.of v = countIn events v b.hour (b.hour + 1)) ∧
        (buckets.map fun b => b.of v).sum =
          countIn events v (nowUnix / 3600 - hours + 1) (nowUnix / 3600 + 1) := by
  have hrows := selectTotals_ok (fun b => (b.hour, b.verdict)) σ.store.db hfit
  simp only [hourlyCountsWindow, hrows]
  refine ⟨_, rfl, ?_, ?_⟩
  · rw [List.map_map]
    rfl
  · intro v
    have hbucket : ∀ i < hours.toNat, _ := fun i hi =>
      hour_counts h (nowUnix / 3600 - hours + 1) (nowUnix / 3600)
        (nowUnix / 3600 - hours + 1 + (i : Nat)) (by omega) (by omega) v
    refine ⟨?_, ?_⟩
    · intro b hb
      obtain ⟨i, hi, rfl⟩ := List.mem_map.mp hb
      exact hbucket i (List.mem_range.mp hi)
    · rw [List.map_map]
      calc _ = ((List.range hours.toNat).map fun i : Nat => countIn events v
              (nowUnix / 3600 - hours + 1 + i) (nowUnix / 3600 - hours + 1 + i + 1)).sum := by
            congr 1
            apply List.map_congr_left
            intro i hi
            exact hbucket i (List.mem_range.mp hi)
        _ = countIn events v (nowUnix / 3600 - hours + 1)
              (nowUnix / 3600 - hours + 1 + hours.toNat) := sum_countIn _ _ _ _
        _ = _ := by
            by_cases hpos : 0 ≤ hours
            · congr 1
              omega
            · -- no hours: both are empty
              rw [countIn_empty _ _ (by omega), countIn_empty _ _ (by omega)]

theorem providerStatsWindow_exact (h : Sums σ events) (hfit : HoursFit nowUnix hours) :
    ∃ providers, providerStatsWindow σ.store.db nowUnix hours = .ok providers ∧
      ∀ v, (providers.rows.map fun r => r.2.of v).sum =
        countIn events v (nowUnix / 3600 - hours + 1) (nowUnix / 3600 + 1) := by
  have hrows := selectTotals_ok (fun b => (b.provider, b.verdict)) σ.store.db hfit
  simp only [providerStatsWindow, hrows]
  exact ⟨_, rfl, provider_counts h _ _⟩

end Windows

/-- After any run of batches whose writes all succeed, with sweeps anywhere among them,
    the counts by hour and by provider, and with latencies that are integers the summary,
    are those of the events persisted, for every window whose bounds can be bound. -/
theorem window_exact (eng : Engine)
    (haffinity : ∀ n, eng.integerAffinity (.integer n) = .integer n) {actions : List Action}
    (hwritten : ∀ a ∈ actions, Written eng a) {nowUnix hours : Int}
    (hfit : HoursFit nowUnix hours) :
    let db := (run eng actions).store.db
    let startHour := nowUnix / 3600 - hours + 1
    let window := fun v => countIn (persisted actions) v startHour (nowUnix / 3600 + 1)
    (∃ buckets, hourlyCountsWindow db nowUnix hours = .ok buckets ∧
      buckets.map HourlyCounts.hour =
        (List.range hours.toNat).map (fun i : Nat => startHour + i) ∧
      ∀ v, (∀ b ∈ buckets, b.of v = countIn (persisted actions) v b.hour (b.hour + 1)) ∧
        (buckets.map fun b => b.of v).sum = window v) ∧
    (∃ providers, providerStatsWindow db nowUnix hours = .ok providers ∧
      ∀ v, (providers.rows.map fun r => r.2.of v).sum = window v) ∧
    (SinceFits nowUnix hours → (∀ e ∈ persisted actions, ∃ n, e.latencyMs = .int n) →
      ∃ summary, summaryWindow db nowUnix hours = .ok summary ∧
        ∀ v, summary.of v = window v) := by
  have hsums := run_sums hwritten
  refine ⟨hourlyCountsWindow_exact hsums hfit, providerStatsWindow_exact hsums hfit, ?_⟩
  intro hsince hints
  have hlatency : ∀ e ∈ persisted actions, isNumber (e.row eng 0).latencyMs = true := by
    intro e he
    obtain ⟨n, hn⟩ := hints e he
    simp only [Event.row, hn, bound, haffinity, isNumber]
  exact summaryWindow_exact hsums (run_numbers hlatency) hfit hsince

/-- Two batches and a sweep, seen from the second hour of 1970. -/
theorem window_exact_swept :
    let actions := [Action.persist {} [.ofVerdict (lit "accepted")], .sweep none 1,
      .persist {} [.ofVerdict (lit "rejected")]]
    ∃ summary, summaryWindow (run .plain actions).store.db 3600 2 = .ok summary ∧
      ∀ v, summary.of v = countIn (persisted actions) v 0 2 := by
  have hwritten : ∀ v, v = lit "accepted" ∨ v = lit "rejected" →
      Written .plain (.persist {} [.ofVerdict v]) := by
    rintro v (rfl | rfl)
    · refine ⟨?_, ?_, rfl⟩
      · unfold Sqlite.NoneRefused; decide
      · intro deltas hd
        obtain rfl := Except.ok.inj hd
        unfold Sqlite.NoneRefused; decide
    · refine ⟨?_, ?_, rfl⟩
      · unfold Sqlite.NoneRefused; decide
      · intro deltas hd
        obtain rfl := Except.ok.inj hd
        unfold Sqlite.NoneRefused; decide
  refine (window_exact .plain (fun _ => rfl) ?_ ?_).2.2 ?_ ?_
  · rw [List.forall_mem_cons, List.forall_mem_cons, List.forall_mem_singleton]
    exact ⟨hwritten _ (.inl rfl), trivial, hwritten _ (.inr rfl)⟩
  · exact ⟨by decide, by decide⟩
  · unfold SinceFits; decide
  · intro e he
    simp only [persisted, List.flatMap_cons, List.flatMap_nil, List.append_nil, List.nil_append,
      List.cons_append, List.mem_cons, List.not_mem_nil, or_false] at he
    rcases he with rfl | rfl
    · exact ⟨0, rfl⟩
    · exact ⟨0, rfl⟩

/-- A batch of two events, of which one has a text for a latency. -/
def mixedLatencies : Action :=
  .persist {} [{ Event.ofVerdict (lit "accepted") with latencyMs := .str (lit "5ms") },
    .ofVerdict (lit "accepted")]

/-- All three raise for a time whose hour is no 64-bit integer, and the summary where a
    latency is no integer. -/
theorem window_raises :
    (summaryWindow (run .plain []).store.db (2 ^ 63 * 3600) 1 = .error .overflowError ∧
      hourlyCountsWindow (run .plain []).store.db (2 ^ 63 * 3600) 1 = .error .overflowError ∧
      providerStatsWindow (run .plain []).store.db (2 ^ 63 * 3600) 1 = .error .overflowError) ∧
    Written .plain mixedLatencies ∧
      summaryWindow (run .plain [mixedLatencies]).store.db 0 1 =
        .error (.typeError (msg "'<' not supported between instances of 'str' and 'int'")) := by
  refine ⟨⟨rfl, rfl, rfl⟩, ⟨?_, ?_, rfl⟩, rfl⟩
  · unfold Sqlite.NoneRefused; decide
  · intro deltas hd
    obtain rfl := Except.ok.inj hd
    unfold Sqlite.NoneRefused; decide

end dashboard
end HookGuard
