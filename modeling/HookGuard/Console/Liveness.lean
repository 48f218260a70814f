import HookGuard.Console.Batcher
import HookGuard.Lib.Runs

/- What the status strip says of the gateway (`hookguard_console/views.py`), from the setting
   that a flush of the batcher writes.

   A flush writes the time its last event is stamped with, which is the gateway's, and the
   strip holds that against the Console's clock. So “connected” tells of a flush within the
   last minute as far as the stamp of the last event of the last flush tells of the flush
   (`connected_iff`). -/
namespace HookGuard
open Py store batcher

namespace views

/-- Sixty seconds, in microseconds. -/
def LIVENESS_WINDOW : Int := 60 * 10 ^ 6

/-- `datetime.fromtimestamp(last_ingest_ms / 1000, tz=UTC)`. -/
def lastHeard (lastIngestMs : Int) : Except Exc Datetime :=
  match Datetime.fromUnixMs lastIngestMs with
  | none => .error (.valueError (msg "year is out of range"))
  | some last => .ok last

/-- `gateway_connected`. -/
def gatewayConnected (now : Datetime) (lastIngestMs : Int) : Except Exc Bool :=
  if lastIngestMs = 0 then .ok false
  else
    match lastHeard lastIngestMs with
    | .error e => .error e
    | .ok last => .ok (now.us - last.us ≤ LIVENESS_WINDOW)

/-- `human_ago`, of a `timedelta` in microseconds. -/
def humanAgo (delta : Int) : Str :=
  let seconds := truncate (nearestDouble (delta / 10 ^ 6))
  if seconds < 60 then intStr seconds ++ lit "s ago"
  else if seconds < 3600 then intStr (seconds / 60) ++ lit "m ago"
  else intStr (seconds / 3600) ++ lit "h ago"

structure DashboardStatus where
  connected : Bool := false
  lastIngestAt : Int := 0
  lastEventAgo : Str := []

/-- `dashboard_status`. -/
def dashboardStatus (s : Store) (now : Datetime) : Except Exc DashboardStatus :=
  match (s.db.settings.get LAST_INGEST_SETTING).bind pyInt with
  | none => .ok {}
  | some lastIngestMs =>
    match gatewayConnected now lastIngestMs with
    | .error e => .error e
    | .ok connected =>
      match lastHeard lastIngestMs with
      | .error e => .error e
      | .ok last =>
        .ok { connected, lastIngestAt := lastIngestMs, lastEventAgo := humanAgo (now.us - last.us) }

/-- A flush of a batch, and when on the Console's clock it completed. -/
structure Flush where
  time : Datetime
  busy : Busy := {}
  pending : List Event
  nonempty : pending ≠ []

/-- The event whose time is recorded. -/
def Flush.last (f : Flush) : Event := f.pending.getLast f.nonempty

/-- Some flush completed within the last minute. -/
def Heard (flushes : List Flush) (now : Datetime) : Prop :=
  ∃ f ∈ flushes, now.us - LIVENESS_WINDOW ≤ f.time.us ∧ f.time.us ≤ now.us

/-- The strip comes up, and says “connected” where some flush completed within the last
    minute. -/
def Tells (s : Store) (flushes : List Flush) (now : Datetime) : Prop :=
  ∃ status, dashboardStatus s now = .ok status ∧ (status.connected = true ↔ Heard flushes now)

/-- The stamp of the last event of a flush is of a `datetime`, and within the last minute, or
    ahead of now, where the flush is within the last minute. -/
def Flush.Stamped (f : Flush) (now : Datetime) : Prop :=
  ∃ stamp, Datetime.fromUnixMs f.last.receivedAt = some stamp ∧
    ((f.last.receivedAt ≠ 0 ∧ now.us ≤ stamp.us + LIVENESS_WINDOW) ↔
      now.us ≤ f.time.us + LIVENESS_WINDOW)

section Flushes
variable (eng : Engine)

def flush (s : Store) (f : Flush) : Store := persist eng f.busy s f.pending

/-- The flush writes its events and the setting, whatever becomes of the rollups. -/
def Succeeds (s : Store) (f : Flush) : Prop :=
  (insertEvents eng f.busy.insert s f.pending).2 = .ok () ∧ f.busy.setting = none

variable {eng} {s : Store} {f : Flush} {flushes : List Flush} {now : Datetime}

/-! ## What a flush records -/

theorem flush_recorded (h : Succeeds eng s f) :
    (flush eng s f).db.settings.get LAST_INGEST_SETTING = some (intStr f.last.receivedAt) := by
  obtain ⟨hinsert, hsetting⟩ := h
  have hlast : f.pending.getLast? = some f.last := List.getLast?_eq_some_getLast f.nonempty
  unfold flush persist
  cases hr : insertEvents eng f.busy.insert s f.pending with
  | mk s' result =>
  cases result with
  | error e => rw [hr] at hinsert; cases hinsert
  | ok u =>
    simp only [hlast, hsetting, setSetting, Store.execute, Option.map_none, Store.withDb_db,
      Sqlite.Keyed.get_alter, if_true]

/-- The recorded time is read back: the table took it as an integer of 64 bits. -/
theorem flush_read (h : Succeeds eng s f) :
    ((flush eng s f).db.settings.get LAST_INGEST_SETTING).bind pyInt =
      some f.last.receivedAt := by
  have hstorable : f.last.Storable :=
    storable_of_noneRefused ((insertEvents_ok_iff s f.pending).mp h.1) _
      (List.getLast_mem f.nonempty)
  rw [flush_recorded h, Option.bind_some, pyInt_of_isInt64 hstorable.receivedAt]

/-! ## What the strip says of it -/

theorem lastHeard_eq {ms : Int} {stamp : Datetime} (h : Datetime.fromUnixMs ms = some stamp) :
    lastHeard ms = .ok stamp := by
  delta lastHeard
  rw [h]

theorem gatewayConnected_eq {ms : Int} {stamp : Datetime}
    (h : Datetime.fromUnixMs ms = some stamp) :
    gatewayConnected now ms =
      .ok (decide (ms ≠ 0 ∧ now.us ≤ stamp.us + LIVENESS_WINDOW)) := by
  unfold gatewayConnected
  by_cases hzero : ms = 0
  · simp [hzero]
  · have hwithin : now.us - stamp.us ≤ LIVENESS_WINDOW ↔
        now.us ≤ stamp.us + LIVENESS_WINDOW := by omega
    rw [if_neg hzero, lastHeard_eq h]
    simp only [hwithin, ne_eq, hzero, not_false_eq_true, true_and]

theorem dashboardStatus_connected {ms : Int}
    (h : (s.db.settings.get LAST_INGEST_SETTING).bind pyInt = some ms) (P : Prop) :
    (∃ status, dashboardStatus s now = .ok status ∧ (status.connected = true ↔ P)) ↔
      ∃ stamp, Datetime.fromUnixMs ms = some stamp ∧
        ((ms ≠ 0 ∧ now.us ≤ stamp.us + LIVENESS_WINDOW) ↔ P) := by
  unfold dashboardStatus
  rw [h]
  cases hstamp : Datetime.fromUnixMs ms with
  | none =>
    have hnever : lastHeard ms = .error (.valueError (msg "year is out of range")) := by
      delta lastHeard
      rw [hstamp]
    refine iff_of_false ?_ (by rintro ⟨_, hnone, _⟩; cases hnone)
    rintro ⟨status, hstatus, -⟩
    simp only [hnever] at hstatus
    split at hstatus <;> cases hstatus
  | some stamp =>
    simp only [gatewayConnected_eq hstamp, lastHeard_eq hstamp]
    refine ⟨?_, ?_⟩
    · rintro ⟨status, hstatus, hconnected⟩
      rw [← Except.ok.inj hstatus] at hconnected
      exact ⟨stamp, rfl, decide_eq_true_iff.symm.trans hconnected⟩
    · rintro ⟨stamp', hstamp', hwithin⟩
      rw [← Option.some.inj hstamp'] at hwithin
      exact ⟨_, rfl, decide_eq_true_iff.trans hwithin⟩

/-- Of flushes in turn, the last tells whether there was one within the last minute. -/
theorem heard_iff (hordered : (flushes ++ [f]).Pairwise (·.time.us ≤ ·.time.us))
    (hpast : ∀ g ∈ flushes ++ [f], g.time.us ≤ now.us) :
    Heard (flushes ++ [f]) now ↔ now.us ≤ f.time.us + LIVENESS_WINDOW := by
  have hlast : ∀ g ∈ flushes ++ [f], g.time.us ≤ f.time.us := by
    intro g hg
    rcases List.mem_append.mp hg with hg | hg
    · exact (List.pairwise_append.mp hordered).2.2 g hg f (List.mem_singleton_self f)
    · rw [List.mem_singleton.mp hg]
  refine ⟨?_, ?_⟩
  · rintro ⟨g, hg, hwithin, -⟩
    have := hlast g hg
    omega
  · intro hwithin
    have hmem : f ∈ flushes ++ [f] := List.mem_append_right _ (List.mem_singleton_self f)
    exact ⟨f, hmem, by omega, hpast f hmem⟩

/-- **Connected.** After flushes that succeed, the strip says “connected” exactly where some
    flush completed within the last minute, if and only if the stamp of the last event of
    the last flush tells of that minute what the flush does. -/
theorem connected_iff (hfresh : s.db.settings.get LAST_INGEST_SETTING = none)
    (hsucceeds : Runs.Along (flush eng) (Succeeds eng) s flushes)
    (hordered : flushes.Pairwise (·.time.us ≤ ·.time.us))
    (hpast : ∀ f ∈ flushes, f.time.us ≤ now.us) :
    Tells (flushes.foldl (flush eng) s) flushes now ↔
      ∀ f ∈ flushes.getLast?, f.Stamped now := by
  rcases List.eq_nil_or_concat flushes with rfl | ⟨flushes, f, rfl⟩
  · -- no flush, and no signal
    refine iff_of_true ⟨{}, ?_, iff_of_false Bool.false_ne_true ?_⟩ ?_
    · rw [List.foldl_nil, dashboardStatus, hfresh]
      rfl
    · rintro ⟨f, hf, -⟩
      exact absurd hf List.not_mem_nil
    · intro f hf
      exact absurd hf (Option.not_mem_none f)
  · rw [List.concat_eq_append] at hsucceeds hordered hpast ⊢
    have hread := flush_read (Runs.Along.concat_iff.mp hsucceeds).2
    rw [List.foldl_concat, List.getLast?_concat, Tells, dashboardStatus_connected hread,
      heard_iff hordered hpast]
    simp [Flush.Stamped]

end Flushes

/-! ## The gateway's clock and the Console's -/

/-- A flush, an hour after the epoch, of one event stamped `ms`. -/
def anHourIn (ms : Int) : Flush where
  time := ⟨3600 * 10 ^ 6, by decide, by decide⟩
  pending := [{ Event.ofVerdict (lit "accepted") with receivedAt := ms }]
  nonempty := List.cons_ne_nil _ _

/-- What the strip says after one flush. -/
def saysConnected (f : Flush) (now : Datetime) : Option Bool :=
  (dashboardStatus (flush .plain (connect {}) f) now).toOption.map DashboardStatus.connected

theorem tells_single_iff {f : Flush} {now : Datetime} {connected : Bool}
    (h : saysConnected f now = some connected) :
    Tells (flush .plain (connect {}) f) [f] now ↔ (connected = true ↔ Heard [f] now) := by
  unfold saysConnected at h
  unfold Tells
  cases hstatus : dashboardStatus (flush .plain (connect {}) f) now with
  | error e =>
    rw [hstatus] at h
    cases h
  | ok status =>
    rw [hstatus] at h
    obtain rfl : status.connected = connected := Option.some.inj h
    refine ⟨?_, fun hiff => ⟨status, rfl, hiff⟩⟩
    rintro ⟨status', hstatus', hiff⟩
    rwa [← Except.ok.inj hstatus'] at hiff

/-- An event that was held up for an hour: the flush just completed, and the gateway is not
    connected. One from a clock that is a day ahead: an hour of silence, and it is. -/
theorem connected_skewed :
    ¬ Tells (flush .plain (connect {}) (anHourIn 1)) [anHourIn 1]
        ⟨3600 * 10 ^ 6, by decide, by decide⟩ ∧
    ¬ Tells (flush .plain (connect {}) (anHourIn 86400000)) [anHourIn 86400000]
        ⟨7200 * 10 ^ 6, by decide, by decide⟩ := by
  refine ⟨?_, ?_⟩
  · have hsays : saysConnected (anHourIn 1) ⟨3600 * 10 ^ 6, by decide, by decide⟩ =
        some false := by decide +kernel
    rw [tells_single_iff hsays]
    intro hiff
    have hheard : Heard [anHourIn 1] ⟨3600 * 10 ^ 6, by decide, by decide⟩ :=
      ⟨_, List.mem_singleton_self _, by decide, by decide⟩
    exact absurd (hiff.mpr hheard) Bool.false_ne_true
  · have hsays : saysConnected (anHourIn 86400000) ⟨7200 * 10 ^ 6, by decide, by decide⟩ =
        some true := by decide +kernel
    rw [tells_single_iff hsays]
    intro hiff
    obtain ⟨f, hf, hwithin, -⟩ := hiff.mp rfl
    rw [List.mem_singleton.mp hf] at hwithin
    exact absurd hwithin (by decide)

def stampedAt (ms : Int) : Event := { Event.ofVerdict (lit "accepted") with receivedAt := ms }

/-- Two flushes five seconds apart, their events out of order: an hour in, of one stamped
    ahead of the flush and one from ten seconds before it, without the rollups; and then of
    three, of which the second is the newest. -/
def twoFlushes : List Flush :=
  [{ time := ⟨3600 * 10 ^ 6, by decide, by decide⟩
     busy := { rollup := fun _ => some (msg "database is locked") }
     pending := [stampedAt 3600500, stampedAt 3590000]
     nonempty := List.cons_ne_nil _ _ },
   { time := ⟨3605 * 10 ^ 6, by decide, by decide⟩
     pending := [stampedAt 3601000, stampedAt 3604000, stampedAt 3602000]
     nonempty := List.cons_ne_nil _ _ }]

/-- A minute after the last stamp the gateway is connected, and a minute after that it is not. -/
theorem connected_stamped :
    (∀ f ∈ twoFlushes.getLast?, f.Stamped ⟨3662 * 10 ^ 6, by decide, by decide⟩ ∧
      f.Stamped ⟨3722 * 10 ^ 6, by decide, by decide⟩) ∧
    Tells (twoFlushes.foldl (flush .plain) (connect {})) twoFlushes
      ⟨3662 * 10 ^ 6, by decide, by decide⟩ ∧
    Tells (twoFlushes.foldl (flush .plain) (connect {})) twoFlushes
      ⟨3722 * 10 ^ 6, by decide, by decide⟩ := by
  have hsucceeds : Runs.Along (flush .plain) (Succeeds .plain) (connect {}) twoFlushes :=
    ⟨⟨by decide, rfl⟩, ⟨by decide, rfl⟩, trivial⟩
  have hordered : twoFlushes.Pairwise (·.time.us ≤ ·.time.us) := by decide
  have hstamped : ∀ f ∈ twoFlushes.getLast?,
      f.Stamped ⟨3662 * 10 ^ 6, by decide, by decide⟩ ∧
        f.Stamped ⟨3722 * 10 ^ 6, by decide, by decide⟩ := by
    intro f hf
    obtain rfl := Option.some.inj hf
    have hstamp : (Datetime.fromUnixMs 3602000).map Datetime.us = some (3602 * 10 ^ 6) := by
      decide +kernel
    obtain ⟨stamp, hstamp, hus⟩ := Option.map_eq_some_iff.mp hstamp
    refine ⟨⟨stamp, hstamp, ?_⟩, stamp, hstamp, ?_⟩
    all_goals
      rw [hus]
      decide
  refine ⟨hstamped, ?_, ?_⟩
  · exact (connected_iff rfl hsucceeds hordered (by decide)).mpr fun f hf => (hstamped f hf).1
  · exact (connected_iff rfl hsucceeds hordered (by decide)).mpr fun f hf => (hstamped f hf).2

end views
end HookGuard
