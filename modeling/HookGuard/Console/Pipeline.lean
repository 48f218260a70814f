import HookGuard.Console.Ingest

/- What becomes of an accepted event: from the route to the queue, from the queue to
   a batch in flight, from there to the table.

   A `State` keeps the events of the requests that were answered 202. The database
   refuses no row that satisfies the constraints of the table; batches are written
   in any order. `Accounted` is the invariant of a run in which nothing overflows:
   every accepted event is in the table, lost with the batch it was in, in flight or
   queued. Once all is flushed, the table has one row for each accepted event exactly
   when every event that was accepted can be stored (`promise_kept_iff`): the route
   lets through what the table does not. -/
namespace HookGuard
open Py

namespace pipeline
open store batcher ingest

section Runs
variable (hmac : Bytes → Bytes → Bytes) (dec : Decoding) (eng : Engine) (secret : Bytes)

/-- A request, a wake-up of the batcher, or the write of a batch in flight; the database
    may fail to write its rollups or the setting. -/
inductive Action where
  | ingest (headers : Headers) (body : Bytes)
  | drain
  | write (rollup : Nat → Option Msg) (setting : Option Msg) (i : Nat)

/-- The batcher, the batches it has drained, the store, and the events of the requests
    answered 202. -/
structure State where
  batcher : Batcher := {}
  inFlight : List (List Event) := []
  store : Store := connect {}
  accepted : List Event := []

def accepts : Except Exc Response → Bool
  | .ok r => r.statusCode == 202
  | .error _ => false

def step (σ : State) : Action → State
  | .ingest headers body =>
    let r := handleIngest hmac dec ⟨secret, some σ.batcher⟩ headers body
    { σ with
      batcher := r.2.batcher.getD σ.batcher
      accepted := if accepts r.1 then σ.accepted ++ (rowOf dec body).toList else σ.accepted }
  | .drain =>
    if σ.batcher.queue = [] then σ
    else { σ with batcher := σ.batcher.drain.2, inFlight := σ.inFlight ++ [σ.batcher.drain.1] }
  | .write rollup setting i =>
    match σ.inFlight[i]? with
    | none => σ
    | some pending =>
      { σ with
        inFlight := σ.inFlight.eraseIdx i
        store := persist eng { rollup, setting } σ.store pending }

/-- The state after a run from an empty database. -/
def run (actions : List Action) : State := actions.foldl (step hmac dec eng secret) {}

/-- The event a request is answered 202 for. -/
def Action.event : Action → Option Event
  | .ingest headers body => if SignedUnder hmac secret headers body then rowOf dec body else none
  | _ => none

/-- Nothing is queued or in flight, and nothing was dropped. -/
structure Flushed (σ : State) : Prop where
  queue : σ.batcher.queue = []
  inFlight : σ.inFlight = []
  dropped : σ.batcher.dropped = 0

/-- The table has exactly one row for each accepted event. -/
def PromiseKept (σ : State) : Prop :=
  (σ.store.db.events.map EventRow.content).Perm (σ.accepted.map fun e => e.row eng 0)

/-- Every accepted event is stored, lost, in flight or queued, and none is lost where
    all of them can be stored. -/
def Accounted (σ : State) : Prop :=
  ∃ stored lost : List Event,
    σ.accepted.Perm (stored ++ (lost ++ (σ.inFlight.flatten ++ σ.batcher.queue))) ∧
    σ.store.db.events.map EventRow.content = stored.map (fun e => e.row eng 0) ∧
    (∀ e ∈ stored, e.Storable) ∧
    ((∀ e ∈ σ.accepted, e.Storable) → lost = [])

end Runs

section Steps
variable {hmac : Bytes → Bytes → Bytes} {dec : Decoding} {eng : Engine} {secret : Bytes}
  {σ : State}

/-! ## One step -/

theorem step_ingest (headers : Headers) (body : Bytes) :
    step hmac dec eng secret σ (.ingest headers body) =
      match (Action.ingest headers body).event hmac dec secret with
      | some e => { σ with batcher := σ.batcher.enqueue e, accepted := σ.accepted ++ [e] }
      | none => σ := by
  simp only [step, Action.event]
  by_cases hs : SignedUnder hmac secret headers body
  · rw [if_pos hs]
    rcases handleIngest_signed dec σ.batcher hs with
      ⟨row, hrow, heq⟩ | ⟨hrow, answer, heq, hanswer⟩
    · simp only [heq, hrow, Option.getD_some, Option.toList_some]
      rfl
    · have hnot : accepts answer = false := by
        rcases hanswer with rfl | ⟨e, rfl⟩ <;> rfl
      simp only [heq, hrow, hnot, Option.getD_some, if_false, Bool.false_eq_true]
  · rw [if_neg hs]
    have heq : handleIngest hmac dec ⟨secret, some σ.batcher⟩ headers body = _ :=
      handleIngest_unsigned hs
    simp only [heq, Option.getD_some]
    rfl

theorem step_accepted (a : Action) :
    (step hmac dec eng secret σ a).accepted =
      σ.accepted ++ (a.event hmac dec secret).toList := by
  cases a with
  | ingest headers body =>
    rw [step_ingest]
    cases (Action.ingest headers body).event hmac dec secret <;> simp
  | drain =>
    simp only [step]
    split <;> simp [Action.event]
  | write rollup setting i =>
    simp only [step]
    split <;> simp [Action.event]

theorem step_dropped (a : Action) :
    σ.batcher.dropped ≤ (step hmac dec eng secret σ a).batcher.dropped := by
  cases a with
  | ingest headers body =>
    rw [step_ingest]
    cases (Action.ingest headers body).event hmac dec secret with
    | none => exact Nat.le_refl _
    | some e => exact Batcher.enqueue_dropped _ _
  | drain =>
    simp only [step]
    split <;> exact Nat.le_refl _
  | write rollup setting i =>
    simp only [step]
    split <;> exact Nat.le_refl _

theorem flatten_perm {batches : List (List Event)} {i : Nat} {pending : List Event}
    (hi : batches[i]? = some pending) :
    batches.flatten.Perm (pending ++ (batches.eraseIdx i).flatten) := by
  obtain ⟨hlt, rfl⟩ := List.getElem?_eq_some_iff.mp hi
  exact (List.getElem_cons_eraseIdx_perm hlt).flatten.symm

/-- The rows of a written batch are those of the events it admits. -/
theorem persist_content (rollup : Nat → Option Msg) (setting : Option Msg) (s : Store)
    (pending : List Event) :
    (persist eng { rollup, setting } s pending).db.events.map EventRow.content =
      s.db.events.map EventRow.content ++
        (admittedEvents eng (fun _ => none) pending).map (fun e => e.row eng 0) := by
  rw [persist_events, insertEvents_content]

theorem admitted_of_storable {pending : List Event} (h : ∀ e ∈ pending, e.Storable) :
    admittedEvents eng (fun _ => none) pending = pending :=
  Sqlite.admitted_eq_self_iff.mpr fun i hi =>
    eventRefusal_none_iff.mpr ⟨rfl, h pending[i] (List.getElem_mem hi)⟩

/-- A batch that is written: its events are stored up to the first that cannot be, and
    the rest is lost. -/
theorem write_accounted {rollup : Nat → Option Msg} {setting : Option Msg} {i : Nat}
    {pending : List Event} (hi : σ.inFlight[i]? = some pending) (h : Accounted eng σ) :
    Accounted eng (step hmac dec eng secret σ (.write rollup setting i)) := by
  obtain ⟨stored, lost, hperm, hrows, hstorable, hlost⟩ := h
  have hprefix : admittedEvents eng (fun _ => none) pending <+: pending :=
    Sqlite.admitted_initial _ _
  obtain ⟨rest, hpending⟩ := hprefix
  simp only [step, hi]
  refine ⟨stored ++ admittedEvents eng (fun _ => none) pending, lost ++ rest, ?_, ?_, ?_, ?_⟩
  · -- the batch leaves the events in flight, its head for the stored, its rest for the lost
    have hflat := flatten_perm hi
    rw [← hpending] at hflat
    have hmoved := ((hflat.append_right σ.batcher.queue).append_left lost).append_left stored
    apply (hperm.trans hmoved).trans
    simp only [List.append_assoc]
    apply List.Perm.append_left
    exact List.perm_append_comm_assoc _ _ _
  · rw [persist_content, hrows, List.map_append]
  · intro e he
    rcases List.mem_append.mp he with he | he
    · exact hstorable e he
    · obtain ⟨_, hnone⟩ := Sqlite.admitted_not_refused e he
      exact (eventRefusal_none_iff.mp hnone).2
  · intro hall
    -- the events of the batch were accepted, so all of them can be stored
    have hin : ∀ e ∈ pending, e.Storable := by
      intro e he
      have hflight : e ∈ σ.inFlight.flatten :=
        List.mem_flatten.mpr ⟨pending, List.mem_of_getElem? hi, he⟩
      exact hall e (hperm.mem_iff.mpr (by simp [hflight]))
    have hrest : rest = [] := by
      rw [admitted_of_storable hin] at hpending
      exact List.self_eq_append_right.mp hpending.symm
    rw [hlost hall, hrest]
    rfl

theorem step_accounted {a : Action} (h : Accounted eng σ)
    (hdropped : (step hmac dec eng secret σ a).batcher.dropped = 0) :
    Accounted eng (step hmac dec eng secret σ a) := by
  cases a with
  | ingest headers body =>
    rw [step_ingest] at hdropped ⊢
    cases he : (Action.ingest headers body).event hmac dec secret with
    | none => exact h
    | some e =>
      obtain ⟨stored, lost, hperm, hrows, hstorable, hlost⟩ := h
      simp only [he] at hdropped
      have hlost' : (∀ x ∈ σ.accepted ++ [e], x.Storable) → lost = [] := fun hall =>
        hlost fun x hx => hall x (List.mem_append_left _ hx)
      refine ⟨stored, lost, ?_, hrows, hstorable, hlost'⟩
      simp only [Batcher.enqueue_queue hdropped]
      simpa only [List.append_assoc] using hperm.append_right [e]
  | drain =>
    simp only [step]
    split
    · exact h
    · obtain ⟨stored, lost, hperm, hrows, hstorable, hlost⟩ := h
      refine ⟨stored, lost, ?_, hrows, hstorable, hlost⟩
      simpa [Batcher.drain] using hperm
  | write rollup setting i =>
    cases hi : σ.inFlight[i]? with
    | none =>
      simp only [step, hi]
      exact h
    | some pending => exact write_accounted hi h

/-! ## Runs -/

theorem foldl_dropped (actions : List Action) (σ : State) :
    σ.batcher.dropped ≤ (actions.foldl (step hmac dec eng secret) σ).batcher.dropped := by
  induction actions generalizing σ with
  | nil => exact Nat.le_refl _
  | cons a actions ih => exact Nat.le_trans (step_dropped a) (ih _)

theorem foldl_accepted (actions : List Action) (σ : State) :
    (actions.foldl (step hmac dec eng secret) σ).accepted =
      σ.accepted ++ actions.filterMap (Action.event hmac dec secret) := by
  induction actions generalizing σ with
  | nil => simp
  | cons a actions ih =>
    rw [List.foldl_cons, ih, step_accepted, List.append_assoc]
    cases ha : a.event hmac dec secret <;> simp [ha]

theorem foldl_accounted (actions : List Action) (σ : State) (h : Accounted eng σ)
    (hdropped : (actions.foldl (step hmac dec eng secret) σ).batcher.dropped = 0) :
    Accounted eng (actions.foldl (step hmac dec eng secret) σ) := by
  induction actions generalizing σ with
  | nil => exact h
  | cons a actions ih =>
    refine ih _ (step_accounted h ?_) hdropped
    exact Nat.le_zero.mp (Nat.le_trans (foldl_dropped actions _) (Nat.le_of_eq hdropped))

theorem accounted_empty : Accounted eng {} :=
  ⟨[], [], .nil, rfl, by simp, fun _ => rfl⟩

/-- With nothing queued or in flight, what is not stored is lost. -/
theorem kept_iff_of_accounted (hf : Flushed σ) (h : Accounted eng σ) :
    PromiseKept eng σ ↔ ∀ e ∈ σ.accepted, e.Storable := by
  obtain ⟨stored, lost, hperm, hrows, hstorable, hlost⟩ := h
  rw [hf.queue, hf.inFlight, List.flatten_nil, List.append_nil, List.append_nil] at hperm
  unfold PromiseKept
  rw [hrows]
  refine ⟨?_, ?_⟩
  · -- as many rows as accepted events: none is lost
    intro hkept
    have hlen := hkept.length_eq
    have haccepted := hperm.length_eq
    rw [List.length_map, List.length_map] at hlen
    rw [List.length_append] at haccepted
    have hnil : lost = [] := List.length_eq_zero_iff.mp (by omega)
    rw [hnil, List.append_nil] at hperm
    exact fun e he => hstorable e (hperm.mem_iff.mp he)
  · intro hall
    rw [hlost hall, List.append_nil] at hperm
    exact (hperm.map fun e => e.row eng 0).symm

end Steps

/-- Once all is flushed, the table has one row for each event that was accepted exactly
    when every request answered 202 carried an event that can be stored. -/
theorem promise_kept_iff (hmac : Bytes → Bytes → Bytes) (dec : Decoding) (eng : Engine)
    (secret : Bytes) (actions : List Action) (h : Flushed (run hmac dec eng secret actions)) :
    PromiseKept eng (run hmac dec eng secret actions) ↔
      ∀ a ∈ actions, ∀ e, a.event hmac dec secret = some e → e.Storable := by
  have haccepted : (run hmac dec eng secret actions).accepted =
      actions.filterMap (Action.event hmac dec secret) := foldl_accepted actions {}
  rw [kept_iff_of_accounted h (foldl_accounted actions {} accounted_empty h.dropped), haccepted]
  simp only [List.mem_filterMap]
  refine ⟨?_, ?_⟩
  · intro hall a ha e he
    exact hall e ⟨a, ha, he⟩
  · intro hall e h
    obtain ⟨a, ha, he⟩ := h
    exact hall a ha e he

/-- HMAC-SHA256 at the key `k` and the preimages of the two bodies. -/
def keyMac (_ message : Bytes) : Bytes :=
  if message = gatewaysig.preimage (bytesLit "console-ingest") verdictBody then
    [135, 217, 214, 88, 228, 176, 98, 30, 186, 88, 251, 250, 150, 130, 102, 221, 107, 123, 56, 26,
     39, 23, 245, 37, 140, 71, 136, 56, 122, 148, 201, 240]
  else
    [185, 169, 239, 51, 237, 134, 143, 116, 218, 197, 202, 206, 23, 8, 119, 148, 55, 172, 78, 38,
     0, 112, 39, 32, 87, 32, 42, 219, 185, 104, 167, 123]

def ingestVerdict : Action :=
  .ingest (feedHeaders "87d9d658e4b0621eba58fbfa968266dd6b7b381a2717f5258c4788387a94c9f0")
    verdictBody

def ingestBare : Action :=
  .ingest (feedHeaders "b9a9ef33ed868f74dac5cace1708779437ac4e260070272057202adbb968a77b")
    bareBody

/-- `{"ts":"1970-01-01T00:00:00Z","verdict":"rejected"}`. -/
def rejectedBody : Bytes :=
  bytesLit "\x7b\"ts\":\"1970-01-01T00:00:00Z\",\"verdict\":\"rejected\"\x7d"

/-- HMAC-SHA256 at the key `k` and the preimage of that body as well. -/
def batchMac (secret message : Bytes) : Bytes :=
  if message = gatewaysig.preimage (bytesLit "console-ingest") rejectedBody then
    [251, 139, 251, 247, 114, 35, 205, 38, 212, 84, 120, 128, 175, 209, 129, 26, 43, 238, 143, 163,
     73, 55, 54, 220, 157, 11, 137, 171, 248, 26, 53, 120]
  else keyMac secret message

def batchDecoding : Decoding :=
  { epochDecoding with
    loads := fun body =>
      if body = rejectedBody then
        .ok (.dict [(lit "ts", .str (lit "1970-01-01T00:00:00Z")),
          (lit "verdict", .str (lit "rejected"))])
      else epochDecoding.loads body }

def ingestRejected : Action :=
  .ingest (feedHeaders "fb8bfbf77223cd26d4547880afd1811a2bee8fa3493736dc9d0b89abf81a3578")
    rejectedBody

/-- The body under the signature of the other. -/
def ingestForged : Action :=
  .ingest (feedHeaders "87d9d658e4b0621eba58fbfa968266dd6b7b381a2717f5258c4788387a94c9f0")
    rejectedBody

/-- A batch of two, and one of the events that came since, written first and without its
    rollups; a request that was not signed is none of them. -/
def twoBatches : List Action :=
  [ingestVerdict, ingestRejected, .drain, ingestForged, ingestRejected, ingestVerdict, .drain,
   .write (fun _ => some (msg "database is locked")) none 1, .write (fun _ => none) none 0]

theorem promise_kept_batches :
    (run batchMac batchDecoding .plain (bytesLit "k") twoBatches).accepted.length = 4 ∧
    PromiseKept .plain (run batchMac batchDecoding .plain (bytesLit "k") twoBatches) := by
  refine ⟨rfl, (promise_kept_iff _ _ _ _ _ ⟨rfl, rfl, rfl⟩).mpr ?_⟩
  -- the time of both bodies, as the route computes it
  have hepoch : ∀ verdict, { Event.ofVerdict verdict with
      receivedAt :=
        truncate (nearestDouble (nearestDouble ((0 - 0 : Int) / 10 ^ 6) * 1000)) } =
        Event.ofVerdict verdict := by
    intro verdict
    have hzero : truncate (nearestDouble (nearestDouble ((0 - 0 : Int) / 10 ^ 6) * 1000)) = 0 := by
      decide +kernel
    rw [hzero]
    rfl
  have haccepted : ingestVerdict.event batchMac batchDecoding (bytesLit "k") =
      some (.ofVerdict (lit "accepted")) := congrArg some (hepoch _)
  have hrejected : ingestRejected.event batchMac batchDecoding (bytesLit "k") =
      some (.ofVerdict (lit "rejected")) := congrArg some (hepoch _)
  have hforged : ingestForged.event batchMac batchDecoding (bytesLit "k") = none := rfl
  intro a ha e he
  by_cases hverdict : a = ingestVerdict
  · rw [hverdict, haccepted] at he
    obtain rfl := Option.some.inj he
    exact ⟨by decide, by decide, by decide, .inl rfl⟩
  · by_cases hreject : a = ingestRejected
    · rw [hreject, hrejected] at he
      obtain rfl := Option.some.inj he
      exact ⟨by decide, by decide, by decide, .inr rfl⟩
    · -- the other actions accept nothing
      simp only [twoBatches, List.mem_cons, List.not_mem_nil, or_false, hverdict, hreject,
        false_or] at ha
      rcases ha with rfl | rfl | rfl | rfl | rfl
      case inr.inl =>
        rw [hforged] at he
        cases he
      all_goals cases he

/-- An event without one in the batch before it: both are answered 202, and the table
    stays empty. -/
theorem promise_broken :
    let σ := run keyMac epochDecoding .plain (bytesLit "k")
      [ingestBare, ingestVerdict, .drain, .write (fun _ => none) none 0]
    Flushed σ ∧ σ.accepted.length = 2 ∧ σ.store.db.events = [] :=
  ⟨⟨rfl, rfl, rfl⟩, rfl, by decide +kernel⟩

end pipeline
end HookGuard
