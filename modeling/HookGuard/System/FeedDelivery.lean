import HookGuard.System.FeedSafety

/- How often a verdict becomes a row.

   Where no request but the emitter's own is accepted, a verdict becomes at most one row,
   whatever the network loses and reorders, the queues discard, the database refuses and
   the retention prunes (`rows_at_most_once`). Where nothing of that happens, and all that
   was recorded went through, each verdict is exactly one row (`rows_exactly_once`): there
   is no verdict that the table does not take (`verdict_storable`). -/
namespace HookGuard
open Py Json Runs

section Subperm
variable {α β : Type} {l l' : List α}

theorem subperm_filterMap (h : l.Subperm l') (f : α → Option β) :
    (l.filterMap f).Subperm (l'.filterMap f) := by
  obtain ⟨l'', hperm, hsub⟩ := h
  exact ⟨_, hperm.filterMap f, hsub.filterMap f⟩

theorem subperm_map (h : l.Subperm l') (f : α → β) : (l.map f).Subperm (l'.map f) := by
  rw [← List.filterMap_eq_map]
  exact subperm_filterMap h _

end Subperm

namespace flush
open store batcher ticker
variable {eng : Engine} {σ : State}

/-- The table has at most the events of the batches that are written, each once, even where
    the database refuses some. -/
def AtMostWritten (eng : Engine) (σ : State) : Prop :=
  (σ.store.db.events.map EventRow.content).Subperm
    ((written σ.loop.jobs).map fun e => e.row eng 0)

theorem step_atMostWritten (h : AtMostWritten eng σ) (a : Action) :
    AtMostWritten eng (step eng σ a) := by
  unfold AtMostWritten at h ⊢
  cases hwrites : σ.writes a with
  | none =>
    have hstore : (step eng σ a).store = σ.store := by rw [step, hwrites]
    have hwritten : (written σ.loop.jobs).Sublist (written (step eng σ a).loop.jobs) := by
      by_cases hwrite : ∃ job, a.act = .write job
      · -- it is written already
        obtain ⟨job, hact⟩ := hwrite
        have hnone : σ.loop.jobs[job]?.filter (fun j => !j.written) = none := by
          simpa [State.writes, hact] using hwrites
        have hjobs : (step eng σ a).loop.jobs =
            σ.loop.jobs.modify job fun j => { j with written := true } := by
          rw [step, hact]
          rfl
        rw [hjobs, written_modify_written hnone]
      · rcases step_hands σ.loop (not_exists.mp hwrite) with heq | heq
        · rw [step, heq]
        · have hwritten : written (step eng σ a).loop.jobs = written σ.loop.jobs := by
            rw [step, heq, written, List.filter_append, written]
            simp
          rw [hwritten]
    rw [hstore]
    exact h.trans (subperm_map hwritten.subperm _)
  | some pending =>
    have hstore : (step eng σ a).store = persist eng a.busy σ.store pending := by
      rw [step, hwrites]
    obtain ⟨job, hact, j, hget, hnot, rfl⟩ : ∃ job, a.act = .write job ∧ ∃ j,
        σ.loop.jobs[job]? = some j ∧ j.written = false ∧ j.pending = pending := by
      unfold State.writes at hwrites
      split at hwrites
      · next job hact =>
        obtain ⟨j, hj, hpending⟩ := Option.map_eq_some_iff.mp hwrites
        obtain ⟨hget, hnot⟩ := Option.filter_eq_some_iff.mp hj
        exact ⟨job, hact, j, hget, by simpa using hnot, hpending⟩
      · cases hwrites
    have hjobs : (step eng σ a).loop.jobs =
        σ.loop.jobs.modify job fun j => { j with written := true } := by
      rw [step, hact]
      rfl
    have hmore := written_modify hget hnot
    have hadmitted : (admittedEvents eng a.busy.insert j.pending).Sublist j.pending :=
      (Sqlite.admitted_initial _ _).sublist
    rw [hstore, hjobs, persist_events, insertEvents_content]
    have hrows := h.append (hadmitted.map fun e => e.row eng 0).subperm
    rw [← List.map_append] at hrows
    exact hrows.trans (hmore.symm.map _).subperm

end flush

namespace feed
open store

section Runs
variable {Certificate PublicKey : Type} {d : Deployment Certificate PublicKey}
  {σ : State Certificate}

/-! ## Rows -/

theorem datetime_int64 (t : Datetime) : isInt64 t.unixMs = true := by
  obtain ⟨hlower, hupper⟩ := t.unixMs_bounds
  simp only [isInt64, Bool.and_eq_true, decide_eq_true_eq]
  omega

/-- The table takes the row of a verdict. -/
theorem verdict_storable {x : app.Record × Seen} (h : Sound x.1) : (verdictRow d x).Storable where
  receivedAt := datetime_int64 x.2.now
  bind := by
    have htext : ∀ s : Str, s.all isScalar = true → bindError (.str s) = none := fun s hs => by
      rw [bindError, if_pos hs]
    have hint : ∀ n : Int, n.natAbs < 10 ^ 18 → bindError (.int n) = none := by
      intro n hn
      have hfits : isInt64 n = true := by
        simp only [isInt64, Bool.and_eq_true, decide_eq_true_eq]
        omega
      rw [bindError, if_pos hfits]
    simp only [Event.fields, verdictRow, List.forall_mem_cons]
    refine ⟨htext _ h.route, htext _ h.provider, htext _ h.verdict_scalar, htext _ h.reason,
      hint _ ?_, hint _ (latencyMs_lt x.2.started x.2.ended), hint _ ?_, htext _ (hex_scalar _),
      htext _ x.2.scalar, List.forall_mem_nil _⟩
    · have := h.status
      omega
    · have := h.size
      unfold app.MAX_BODY_BYTES at this
      omega
  notNull := by
    simp only [Event.fields, verdictRow, List.forall_mem_cons, bound]
    simp
  verdict := h.verdict.imp (congrArg Value.str) (congrArg Value.str)

/-! ## Each verdict at most once -/

/-- The row of a request to the ingest route. -/
def requestRow (d : Deployment Certificate PublicKey) (request : app.UpstreamRequest) :
    Option Event :=
  ingest.rowOf d.decoding request.content

/-- The requests of the events that the emitter attempted. -/
def requests (d : Deployment Certificate PublicKey) (σ : State Certificate) :
    List app.UpstreamRequest :=
  σ.emitter.attempted.filterMap fun event => (requestOf d event).toOption

/-- No request but the emitter's own is accepted by the ingest route: none is forged, and
    none is sent again. -/
def Genuine (d : Deployment Certificate PublicKey) (_ : State Certificate) : Action → Prop
  | .ingest headers body => ¬ ingest.SignedUnder d.lib.hmac d.internalSecret headers body
  | _ => True

/-- What every state of a run satisfies with no request but the emitter's. -/
structure Once (d : Deployment Certificate PublicKey) (σ : State Certificate) : Prop where
  kept : Kept d σ
  posting : d.eventsUrl ≠ [] → emitter.Kept σ.emitter ∧
    σ.emitter.recorded = σ.recorded.map fun x => verdictEvent d x.1 x.2
  quiet : d.eventsUrl = [] → emitter.Quiet σ.emitter
  /-- Each request that was made arrived, is under way or is lost. -/
  arrived : ∃ arrived, (arrived ++ (σ.inFlight ++ σ.lost)).Perm (requests d σ) ∧
    σ.console.loop.enqueued = arrived.filterMap (requestRow d)
  table : flush.AtMostWritten d.eng σ.console

theorem event_inFlight (h : Kept d σ) {request : app.UpstreamRequest}
    (hrequest : request ∈ σ.inFlight) :
    (pipeline.Action.ingest request.headers request.content).event d.lib.hmac d.decoding
      d.internalSecret = requestRow d request := by
  obtain ⟨event, hevent, hpost⟩ := h.inFlight request hrequest
  obtain ⟨-, -, content, -, hsent, -⟩ := h.attempted hevent
  obtain rfl := Except.ok.inj (hpost.symm.trans hsent)
  exact if_pos (ingest.forwardedHeaders_signed d.lib.hmac d.internalSecret content)

theorem ingested_enqueued (console : flush.State) (headers : Headers) (body : Bytes) :
    (ingested d console headers body).loop.enqueued = console.loop.enqueued ++
      ((pipeline.Action.ingest headers body).event d.lib.hmac d.decoding
        d.internalSecret).toList := by
  unfold ingested
  cases (pipeline.Action.ingest headers body).event d.lib.hmac d.decoding d.internalSecret with
  | none => exact (List.append_nil _).symm
  | some row => rfl

theorem ingested_atMostWritten {console : flush.State}
    (h : flush.AtMostWritten d.eng console) (headers : Headers) (body : Bytes) :
    flush.AtMostWritten d.eng (ingested d console headers body) := by
  unfold ingested
  cases (pipeline.Action.ingest headers body).event d.lib.hmac d.decoding d.internalSecret with
  | none => exact h
  | some row => exact flush.step_atMostWritten h _

theorem record_once (h : Once d σ) (j : Nat) (seen : Seen) : Once d (σ.record d j seen) := by
  have hkept := record_kept h.kept j seen
  unfold State.record at hkept ⊢
  cases hcall : σ.calls[j]? with
  | none => exact h
  | some record =>
    rw [hcall] at hkept
    refine ⟨hkept, ?_, fun hurl => (h.quiet hurl).step (.record _), ?_, h.table⟩
    · intro hurl
      obtain ⟨hemitter, hrecorded⟩ := h.posting hurl
      refine ⟨emitter.record_kept hemitter _, ?_⟩
      have henabled := hemitter.enabled
      simp only [emitter.State.record, henabled, Bool.not_true, Bool.false_eq_true, if_false,
        List.map_append, hrecorded, List.map_cons, List.map_nil]
    · unfold requests
      simp only [emitter.record_attempted]
      exact h.arrived

theorem emit_once (h : Once d σ) (a : emitter.Action VerifyEvent) : Once d (σ.emit d a) := by
  have hkept := emit_kept h.kept a
  by_cases ha : ∀ event, a ≠ .record event
  · have hemit : σ.emit d a = { σ with
        emitter := emitter.step σ.emitter a
        inFlight := σ.inFlight ++ ((emitter.step σ.emitter a).attempted.drop
          σ.emitter.attempted.length).filterMap fun event => (requestOf d event).toOption } := by
      cases a with
      | record event => exact absurd rfl (ha event)
      | _ => rfl
    obtain ⟨events, hattempted⟩ := emitter.step_attempted σ.emitter a
    rw [hemit] at hkept ⊢
    refine ⟨hkept, ?_, fun hurl => (h.quiet hurl).step a, ?_, h.table⟩
    · intro hurl
      obtain ⟨hemitter, hrecorded⟩ := h.posting hurl
      refine ⟨emitter.step_kept hemitter a, ?_⟩
      rw [emitter.step_recorded σ.emitter ha]
      exact hrecorded
    · obtain ⟨arrived, hperm, henqueued⟩ := h.arrived
      refine ⟨arrived, ?_, henqueued⟩
      unfold requests at hperm ⊢
      simp only [hattempted, List.drop_left, List.filterMap_append]
      generalize events.filterMap _ = new
      -- what is new goes behind what is lost
      have hmoved : (arrived ++ (σ.inFlight ++ new ++ σ.lost)).Perm
          (arrived ++ (σ.inFlight ++ σ.lost) ++ new) := by
        rw [List.append_assoc, List.append_assoc, List.append_assoc]
        exact (List.perm_append_comm.append_left σ.inFlight).append_left arrived
      exact hmoved.trans (hperm.append_right new)
  · obtain ⟨event, rfl⟩ := Classical.not_forall_not.mp ha
    exact h

theorem eraseIdx_perm {request : app.UpstreamRequest} {j : Nat}
    (hrequest : σ.inFlight[j]? = some request) :
    (request :: σ.inFlight.eraseIdx j).Perm σ.inFlight := by
  obtain ⟨hlt, rfl⟩ := List.getElem?_eq_some_iff.mp hrequest
  exact List.getElem_cons_eraseIdx_perm hlt

theorem arrive_once (h : Once d σ) (j : Nat) : Once d (σ.arrive d j) := by
  have hkept := arrive_kept h.kept j
  unfold State.arrive at hkept ⊢
  cases hrequest : σ.inFlight[j]? with
  | none => exact h
  | some request =>
    rw [hrequest] at hkept
    have hevent := event_inFlight h.kept (List.mem_of_getElem? hrequest)
    obtain ⟨arrived, hperm, henqueued⟩ := h.arrived
    have hmoved : (arrived ++ [request] ++ (σ.inFlight.eraseIdx j ++ σ.lost)).Perm
        (requests d σ) := by
      rw [List.append_assoc, List.singleton_append, ← List.cons_append]
      exact (((eraseIdx_perm hrequest).append_right σ.lost).append_left arrived).trans hperm
    refine ⟨hkept, h.posting, h.quiet, ⟨arrived ++ [request], hmoved, ?_⟩,
      ingested_atMostWritten h.table _ _⟩
    rw [List.filterMap_append, ← henqueued]
    refine (ingested_enqueued σ.console request.headers request.content).trans ?_
    rw [hevent]
    cases hrow : requestRow d request <;> simp [hrow]

theorem lose_once (h : Once d σ) (j : Nat) : Once d (σ.lose j) := by
  have hkept := lose_kept h.kept j
  unfold State.lose at hkept ⊢
  cases hrequest : σ.inFlight[j]? with
  | none => exact h
  | some request =>
    rw [hrequest] at hkept
    obtain ⟨arrived, hperm, henqueued⟩ := h.arrived
    refine ⟨hkept, h.posting, h.quiet, ⟨arrived, ?_, henqueued⟩, h.table⟩
    have hmoved : (σ.inFlight.eraseIdx j ++ (σ.lost ++ [request])).Perm
        (σ.inFlight ++ σ.lost) := by
      rw [← List.append_assoc]
      exact (List.perm_append_singleton request _).trans
        ((eraseIdx_perm hrequest).append_right σ.lost)
    exact (hmoved.append_left arrived).trans hperm

theorem work_once (h : Once d σ) (a : flush.Action) : Once d (σ.work d a) := by
  have hkept := work_kept h.kept a
  by_cases ha : ∀ event, a.act ≠ .enqueue event
  · have hwork : σ.work d a = { σ with console := flush.step d.eng σ.console a } := by
      unfold State.work
      split
      · next event hact => exact absurd hact (ha event)
      · rfl
    rw [hwork] at hkept ⊢
    obtain ⟨arrived, hperm, henqueued⟩ := h.arrived
    exact ⟨hkept, h.posting, h.quiet, ⟨arrived, hperm,
      (ticker.step_enqueued σ.console.loop ha).trans henqueued⟩,
      flush.step_atMostWritten h.table a⟩
  · obtain ⟨event, hact⟩ := Classical.not_forall_not.mp ha
    unfold State.work at hkept ⊢
    rw [hact] at hkept ⊢
    exact h

theorem step_once (h : Once d σ) {a : Action} (hgenuine : Genuine d σ a) :
    Once d (step d σ a) := by
  cases a with
  | hook i stream headers moment answers =>
    have hkept := hook_kept h.kept i stream headers moment answers
    simp only [step, State.hook] at hkept ⊢
    cases houtcome : outcome d σ i stream headers moment answers with
    | none => exact h
    | some r =>
      rw [houtcome] at hkept
      exact ⟨hkept, h.posting, h.quiet, h.arrived, h.table⟩
  | record j seen => exact record_once h j seen
  | emit a => exact emit_once h a
  | arrive j => exact arrive_once h j
  | lose j => exact lose_once h j
  | ingest headers body =>
    have hnone : ingested d σ.console headers body = σ.console := by
      unfold ingested
      have hevent : (pipeline.Action.ingest headers body).event d.lib.hmac d.decoding
          d.internalSecret = none := if_neg hgenuine
      rw [hevent]
    simp only [step, hnone]
    exact h
  | upstream headers body => exact h
  | console a => exact work_once h a
  | sweep busy cutoffMs =>
    have hsub := tail.deleteEventsOlderThan_sublist busy σ.console.store cutoffMs
    exact ⟨sweep_kept h.kept busy cutoffMs, h.posting, h.quiet, h.arrived,
      (hsub.map EventRow.content).subperm.trans h.table⟩

theorem start_once {routes : List (Route × Verifier Certificate)} (h : Serving d routes) :
    Once d (start d routes) where
  kept := start_kept h
  posting hurl := ⟨emitter.run_kept hurl [], emitter.start_recorded d.eventsUrl⟩
  quiet hurl := emitter.start_quiet hurl
  arrived := by
    refine ⟨[], ?_, rfl⟩
    have hnone : (start d routes).emitter.attempted = [] := by
      unfold start emitter.State.start
      split <;> rfl
    unfold requests
    rw [hnone]
    exact .nil
  table := List.nil_subperm

theorem run_once {routes : List (Route × Verifier Certificate)} (hserving : Serving d routes)
    {actions : List Action} (h : Along (step d) (Genuine d) (start d routes) actions) :
    Once d (run d routes actions) := by
  induction actions using List.reverseRecOn with
  | nil => exact start_once hserving
  | append_singleton actions a ih =>
    obtain ⟨hrest, hlast⟩ := Along.concat_iff.mp h
    rw [run, List.foldl_append]
    exact step_once (ih hrest) hlast

/-- The row of an event that is sent. -/
def eventRow (d : Deployment Certificate PublicKey) (event : VerifyEvent) : Option Event :=
  (requestOf d event).toOption.bind (requestRow d)

theorem eventRow_verdict {x : app.Record × Seen} (h : Sound x.1) :
    eventRow d (verdictEvent d x.1 x.2) = some (verdictRow d x) := by
  obtain ⟨content, -, hrequest, hrow⟩ := @verdict_sent _ _ d x.1 h x.2
  rw [eventRow, hrequest]
  exact hrow

theorem Once.recorded_rows (h : Once d σ)
    (hrecorded : σ.emitter.recorded = σ.recorded.map fun x => verdictEvent d x.1 x.2) :
    σ.emitter.recorded.filterMap (eventRow d) = σ.recorded.map (verdictRow d) := by
  rw [hrecorded, List.filterMap_map, ← List.filterMap_eq_map]
  refine List.filterMap_congr ?_
  intro x hx
  exact eventRow_verdict (h.kept.sound x hx)

theorem requests_rows (d : Deployment Certificate PublicKey) (σ : State Certificate) :
    (requests d σ).filterMap (requestRow d) = σ.emitter.attempted.filterMap (eventRow d) :=
  List.filterMap_filterMap

/-- The rows of the requests that were made are rows of verdicts, each once. -/
theorem Once.subperm_rows (h : Once d σ) :
    ((requests d σ).filterMap (requestRow d)).Subperm (σ.recorded.map (verdictRow d)) := by
  rw [requests_rows]
  by_cases hurl : d.eventsUrl = []
  · rw [(h.quiet hurl).attempted]
    exact List.nil_subperm
  · obtain ⟨hemitter, hrecorded⟩ := h.posting hurl
    have hattempted : σ.emitter.attempted.Sublist σ.emitter.recorded :=
      ((List.sublist_append_left _ _).trans (List.sublist_append_left _ _)).trans
        hemitter.flow.order
    rw [← h.recorded_rows hrecorded]
    exact (hattempted.filterMap _).subperm

theorem Once.enqueued_rows (h : Once d σ) :
    σ.console.loop.enqueued.Subperm (σ.recorded.map (verdictRow d)) := by
  obtain ⟨arrived, hperm, henqueued⟩ := h.arrived
  have harrived : arrived.Subperm (requests d σ) :=
    (List.sublist_append_left _ _).subperm.trans hperm.subperm
  rw [henqueued]
  exact (subperm_filterMap harrived _).trans h.subperm_rows

/-- Where no request but the emitter's own is accepted, every row of the table is of a
    verdict, and no two are of one, whatever is lost on the way, comes in another order, is
    discarded by a full queue, is refused by the database or pruned; and the verdicts were
    recorded by calls of the run, each by one. -/
theorem rows_at_most_once {routes : List (Route × Verifier Certificate)}
    (hserving : Serving d routes) {actions : List Action}
    (h : Along (step d) (Genuine d) (start d routes) actions) :
    ((run d routes actions).console.store.db.events.map EventRow.content).Subperm
        ((run d routes actions).recorded.map fun x => (verdictRow d x).row d.eng 0) ∧
      ((run d routes actions).recorded.map Prod.fst).Subperm
        (collect (step d) (judged d) (start d routes) actions) := by
  have honce := run_once hserving h
  refine ⟨?_, ?_⟩
  · have hwritten : (flush.written (run d routes actions).console.loop.jobs).Subperm
        ((run d routes actions).recorded.map (verdictRow d)) := by
      have hbatches : (flush.written (run d routes actions).console.loop.jobs).Sublist
          (run d routes actions).console.loop.batches.flatten :=
        (List.filter_sublist.map ticker.Job.pending).flatten
      have henqueued : (run d routes actions).console.loop.batches.flatten.Sublist
          (run d routes actions).console.loop.enqueued :=
        (List.sublist_append_left _ _).trans honce.kept.loop.flow.order
      exact (hbatches.trans henqueued).subperm.trans honce.enqueued_rows
    have hrows := subperm_map hwritten fun e => e.row d.eng 0
    rw [List.map_map] at hrows
    exact honce.table.trans hrows
  · exact (List.sublist_append_left _ _).subperm.trans (run_calls routes actions).subperm

/-! ## Each verdict once -/

/-- Nothing is pruned, and the database refuses nothing that its table takes. -/
def Undisturbed : Action → Prop
  | .console a => ∀ i, a.busy.insert i = none
  | .sweep _ _ => False
  | _ => True

/-- All that was recorded went through: nothing waits anywhere, and nothing was lost or
    discarded. -/
structure Settled (σ : State Certificate) : Prop where
  calls : σ.calls = []
  queue : σ.emitter.queue.items = []
  hand : (σ.emitter.task.map emitter.Task.hand).getD [] = []
  discarded : σ.emitter.discarded = []
  inFlight : σ.inFlight = []
  lost : σ.lost = []
  consoleQueue : σ.console.loop.queue.items = []
  consoleDiscarded : σ.console.loop.discarded = []
  written : ∀ j ∈ σ.console.loop.jobs, j.written = true

instance : DecidablePred (@Settled Certificate) := fun σ =>
  decidable_of_iff (σ.calls = [] ∧ σ.emitter.queue.items = [] ∧
      (σ.emitter.task.map emitter.Task.hand).getD [] = [] ∧ σ.emitter.discarded = [] ∧
      σ.inFlight = [] ∧ σ.lost = [] ∧ σ.console.loop.queue.items = [] ∧
      σ.console.loop.discarded = [] ∧ ∀ j ∈ σ.console.loop.jobs, j.written = true)
    ⟨fun ⟨h1, h2, h3, h4, h5, h6, h7, h8, h9⟩ => ⟨h1, h2, h3, h4, h5, h6, h7, h8, h9⟩,
      fun h => ⟨h.calls, h.queue, h.hand, h.discarded, h.inFlight, h.lost, h.consoleQueue,
        h.consoleDiscarded, h.written⟩⟩

theorem Kept.succeeds (h : Kept d σ) {a : flush.Action} (ha : ∀ i, a.busy.insert i = none) :
    flush.Succeeds d.eng σ.console a := by
  intro pending hwrites
  rw [insertEvents_ok_iff]
  intro i hi
  rw [eventRefusal_none_iff]
  refine ⟨ha i, ?_⟩
  have hin : pending[i] ∈ σ.console.loop.enqueued :=
    (writes_enqueued h.loop hwrites).subset (List.getElem_mem hi)
  obtain ⟨x, hx, heq⟩ := h.enqueued _ hin
  rw [heq]
  exact verdict_storable (h.sound x hx)

theorem ingested_stored {console : flush.State} (h : flush.Kept d.eng console)
    (headers : Headers) (body : Bytes) : flush.Kept d.eng (ingested d console headers body) := by
  unfold ingested
  cases (pipeline.Action.ingest headers body).event d.lib.hmac d.decoding d.internalSecret with
  | none => exact h
  | some row => exact flush.step_kept h fun pending hwrites => nomatch hwrites

/-- A step that is not disturbed writes batches whole. -/
theorem step_stored (honce : Once d σ) (h : flush.Kept d.eng σ.console) {a : Action}
    (ha : Undisturbed a) : flush.Kept d.eng (step d σ a).console := by
  cases a with
  | hook i stream headers moment answers =>
    simp only [step, State.hook]
    split <;> exact h
  | record j seen =>
    simp only [step, State.record]
    split <;> exact h
  | emit a =>
    simp only [step, State.emit]
    split <;> exact h
  | arrive j =>
    simp only [step, State.arrive]
    split
    · exact h
    · exact ingested_stored h _ _
  | lose j =>
    simp only [step, State.lose]
    split <;> exact h
  | ingest headers body => exact ingested_stored h headers body
  | upstream headers body => exact h
  | console a =>
    simp only [step, State.work]
    split
    · exact h
    · exact flush.step_kept h (honce.kept.succeeds ha)
  | sweep busy cutoffMs => exact ha.elim

theorem run_stored {routes : List (Route × Verifier Certificate)} (hserving : Serving d routes)
    {actions : List Action} (h : Along (step d) (fun σ a => Genuine d σ a ∧ Undisturbed a)
      (start d routes) actions) :
    Once d (run d routes actions) ∧ flush.Kept d.eng (run d routes actions).console := by
  induction actions using List.reverseRecOn with
  | nil => exact ⟨start_once hserving, flush.kept_start⟩
  | append_singleton actions a ih =>
    obtain ⟨hrest, hgenuine, hundisturbed⟩ := Along.concat_iff.mp h
    obtain ⟨honce, hstored⟩ := ih hrest
    rw [run, List.foldl_append]
    exact ⟨step_once honce hgenuine, step_stored honce hstored hundisturbed⟩

/-- Where moreover nothing is pruned, the database is not busy when a batch is written, and
    all that was recorded went through, the rows of the table are those of the verdicts of
    the calls of the run, each exactly once. -/
theorem rows_exactly_once {routes : List (Route × Verifier Certificate)}
    (hserving : Serving d routes) (hurl : d.eventsUrl ≠ []) {actions : List Action}
    (h : Along (step d) (fun σ a => Genuine d σ a ∧ Undisturbed a) (start d routes) actions)
    (hsettled : Settled (run d routes actions)) :
    ((run d routes actions).console.store.db.events.map EventRow.content).Perm
        ((run d routes actions).recorded.map fun x => (verdictRow d x).row d.eng 0) ∧
      ((run d routes actions).recorded.map Prod.fst).Perm
        (collect (step d) (judged d) (start d routes) actions) := by
  obtain ⟨honce, hstored⟩ := run_stored hserving h
  have hcalls := run_calls (d := d) routes actions
  rw [hsettled.calls, List.append_nil] at hcalls
  refine ⟨?_, hcalls⟩
  generalize run d routes actions = σ at honce hstored hsettled ⊢
  -- what is written is what was enqueued
  have hwritten : (flush.written σ.console.loop.jobs).Perm σ.console.loop.enqueued := by
    have hall : flush.written σ.console.loop.jobs = σ.console.loop.batches.flatten := by
      rw [flush.written, List.filter_eq_self.mpr hsettled.written]
      rfl
    have hflow := hstored.loop.flow.once
    rw [hsettled.consoleQueue, List.nil_append] at hflow
    have hnone : σ.console.loop.flow.discarded = [] := hsettled.consoleDiscarded
    rw [hnone, List.append_nil] at hflow
    rw [hall]
    exact hflow.symm
  -- what was enqueued are the rows of the requests that were made
  have henqueued : σ.console.loop.enqueued.Perm
      (σ.emitter.attempted.filterMap (eventRow d)) := by
    obtain ⟨arrived, hperm, henqueued⟩ := honce.arrived
    rw [hsettled.inFlight, hsettled.lost, List.append_nil, List.append_nil] at hperm
    rw [henqueued, ← requests_rows]
    exact hperm.filterMap _
  -- and every event was attempted
  obtain ⟨hemitter, hrecorded⟩ := honce.posting hurl
  have hattempted : σ.emitter.attempted.Perm σ.emitter.recorded := by
    have hflow := hemitter.flow.once
    unfold emitter.State.flow at hflow
    simp only [hsettled.queue, hsettled.hand, hsettled.discarded, List.append_nil] at hflow
    exact hflow.symm
  have hrows : (flush.written σ.console.loop.jobs).Perm (σ.recorded.map (verdictRow d)) := by
    rw [← honce.recorded_rows hrecorded]
    exact (hwritten.trans henqueued).trans (hattempted.filterMap _)
  have hmapped := hrows.map fun e => e.row d.eng 0
  rw [List.map_map] at hmapped
  exact hstored.table.trans hmapped

end Runs

/-- The event of a push arrives, and is written. -/
def delivered : List Action :=
  [.arrive 0, .console ⟨.resume, {}⟩, .console ⟨.resume, {}⟩, .console ⟨.write 0, {}⟩]

theorem recorded_delivered (σ : State Unit) :
    (delivered.foldl (step pushDeployment) σ).recorded = σ.recorded := by
  show (σ.arrive pushDeployment 0).recorded = σ.recorded
  unfold State.arrive
  split <;> rfl

theorem recorded_pushed :
    (run pushDeployment pushRoutes pushed).recorded = [(pushRecord, pushSeen)] := rfl

/-- A request without a signature changes nothing, and the push is at most one row. -/
theorem rows_at_most_once_push :
    ((run pushDeployment pushRoutes (pushed ++ .ingest [] pushPayload ::
      delivered)).console.store.db.events.map EventRow.content).Subperm
        [(verdictRow pushDeployment (pushRecord, pushSeen)).row .plain 0] := by
  have hgenuine : Along (step pushDeployment) (Genuine pushDeployment)
      (start pushDeployment pushRoutes) (pushed ++ .ingest [] pushPayload :: delivered) := by
    refine ⟨trivial, trivial, trivial, trivial, trivial, ?_, trivial, trivial, trivial, trivial,
      trivial⟩
    intro hsigned
    exact absurd hsigned.1 (by decide)
  have hrows := (rows_at_most_once serving_push hgenuine).1
  have hrecorded : (run pushDeployment pushRoutes (pushed ++ .ingest [] pushPayload ::
      delivered)).recorded = [(pushRecord, pushSeen)] := by
    rw [run, List.foldl_append, List.foldl_cons, recorded_delivered, ← recorded_pushed]
    rfl
  rw [hrecorded] at hrows
  exact hrows

/-- The push is one row. -/
theorem rows_exactly_once_push :
    ((run pushDeployment pushRoutes (pushed ++ delivered)).console.store.db.events.map
      EventRow.content).Perm [(verdictRow pushDeployment (pushRecord, pushSeen)).row .plain 0] := by
  have hrun : Along (step pushDeployment) (fun σ a => Genuine pushDeployment σ a ∧ Undisturbed a)
      (start pushDeployment pushRoutes) (pushed ++ delivered) :=
    ⟨⟨trivial, trivial⟩, ⟨trivial, trivial⟩, ⟨trivial, trivial⟩, ⟨trivial, trivial⟩,
      ⟨trivial, trivial⟩, ⟨trivial, trivial⟩, ⟨trivial, fun _ => rfl⟩, ⟨trivial, fun _ => rfl⟩,
      ⟨trivial, fun _ => rfl⟩, trivial⟩
  have hsettled : Settled (run pushDeployment pushRoutes (pushed ++ delivered)) := by
    decide +kernel
  have hrows := (rows_exactly_once serving_push (by decide) hrun hsettled).1
  have hrecorded : (run pushDeployment pushRoutes (pushed ++ delivered)).recorded =
      [(pushRecord, pushSeen)] := by
    rw [run, List.foldl_append, recorded_delivered, ← recorded_pushed]
    rfl
  rw [hrecorded] at hrows
  exact hrows

end feed
end HookGuard
