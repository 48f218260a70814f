import HookGuard.Console.LiveTail
import HookGuard.System.Feed

/- What the Console and the upstream can be made to believe.

   Under whatever anyone sends, the rows of the table are verdicts of calls that were made
   (`rows_authentic`), and what the upstream accepts under a provider without a dot was
   verified by a route of that provider, or is an event of the Gateway's own
   (`upstream_authentic`): the two share the secret, and only the label tells them apart.
   A request that is replayed is a row again. -/
namespace HookGuard
open Py Json Runs

namespace feed
open store

section Calls
variable {Certificate PublicKey : Type} {d : Deployment Certificate PublicKey} {route : Route}
  {verifier : Verifier Certificate} {stream : List Bytes} {headers : Headers} {moment : Moment}
  {answers : Answers} {record : app.Record}

/-- What a verdict says of the call that it is of. -/
structure Verdict (d : Deployment Certificate PublicKey) (route : Route)
    (verifier : Verifier Certificate) (body : Bytes) (headers : Headers) (moment : Moment)
    (record : app.Record) : Prop where
  path : record.route = route.path
  label : record.provider = route.provider
  content : record.body = body
  size : body.length ≤ app.MAX_BODY_BYTES
  status : record.upstreamStatus < 1000
  verdict : (record.verdict = lit "accepted" ∧ record.reason = [] ∧
      (verifier.verify d.lib body headers moment).1 = .ok ()) ∨
    (record.verdict = lit "rejected" ∧ record.upstreamStatus = 0 ∧ ∃ m,
      (verifier.verify d.lib body headers moment).1 = .error (.verificationError m) ∧
      record.reason = classifyReason (m.render d.lib.printable))

theorem forward_status {body : Bytes} {response : Response} {status : Nat}
    (h : (app.forward d.lib route d.internalSecret answers.post body).2 = .ok (response, status)) :
    status < 1000 := by
  unfold app.forward at h
  split at h
  · cases h
  · split at h
    · cases h
    · simp only at h
      split at h
      · obtain ⟨-, rfl⟩ := Prod.mk.inj (Except.ok.inj h)
        decide
      · cases h
      · next upstream hpost =>
        split at h
        · cases h
        · obtain ⟨-, rfl⟩ := Prod.mk.inj (Except.ok.inj h)
          exact answers.status _ _ hpost

theorem handler_verdict (h : record ∈ (app.handler d.lib route d.internalSecret answers.post
    verifier stream headers moment).records) :
    Verdict d route verifier stream.flatten headers moment record := by
  unfold app.handler at h
  rw [app.readCappedBody_eq] at h
  by_cases hsize : stream.flatten.length ≤ app.MAX_BODY_BYTES
  · rw [if_pos hsize] at h
    cases hverify : verifier.verify d.lib stream.flatten headers moment with
    | mk result verifier' =>
    have hresult : (verifier.verify d.lib stream.flatten headers moment).1 = result := by
      rw [hverify]
    simp only [hverify] at h
    cases result with
    | error e =>
      cases e with
      | verificationError m =>
        obtain rfl := List.mem_singleton.mp h
        exact ⟨rfl, rfl, rfl, hsize, Nat.succ_pos 999, .inr ⟨rfl, rfl, m, hresult, rfl⟩⟩
      | _ => cases h
    | ok u =>
      cases hforward : app.forward d.lib route d.internalSecret answers.post stream.flatten with
      | mk posts answer =>
      simp only [hforward] at h
      cases answer with
      | error e => cases h
      | ok relayed =>
        obtain ⟨response, status⟩ := relayed
        obtain rfl := List.mem_singleton.mp h
        have hstatus := forward_status (congrArg Prod.snd hforward)
        exact ⟨rfl, rfl, rfl, hsize, hstatus, .inl ⟨rfl, rfl, hresult⟩⟩
  · rw [if_neg hsize] at h
    cases h

/-! ## An event on its way -/

/-- A verdict that can be sent: of text, and in bounds. -/
structure Sound (record : app.Record) : Prop where
  route : record.route.all isScalar = true
  provider : record.provider.all isScalar = true
  verdict : record.verdict = lit "accepted" ∨ record.verdict = lit "rejected"
  reason : record.reason.all isScalar = true
  status : record.upstreamStatus < 1000
  size : record.body.length ≤ app.MAX_BODY_BYTES

theorem classifyReason_scalar (text : Str) : (classifyReason text).all isScalar = true := by
  unfold classifyReason
  simp only
  repeat' split
  all_goals decide

theorem Verdict.sound {body : Bytes} (h : Verdict d route verifier body headers moment record) :
    Sound record := by
  have hroute := route.scalar
  simp only [List.all_append, Bool.and_eq_true] at hroute
  obtain ⟨⟨⟨⟨⟨hpath, hprovider⟩, -⟩, -⟩, -⟩, -⟩ := hroute
  refine ⟨h.path ▸ hpath, h.label ▸ hprovider, h.verdict.imp And.left And.left, ?_, h.status,
    h.content ▸ h.size⟩
  rcases h.verdict with ⟨-, hreason, -⟩ | ⟨-, -, m, -, hreason⟩
  · rw [hreason]
    rfl
  · rw [hreason]
    exact classifyReason_scalar _

theorem Sound.verdict_scalar (h : Sound record) : record.verdict.all isScalar = true := by
  rcases h.verdict with hverdict | hverdict
  · rw [hverdict]
    decide
  · rw [hverdict]
    decide

theorem scalar_sendable {s : Str} (h : s.all isScalar = true) :
    Sendable (.str s) ∧ paired (.str s) = .str s := by
  obtain ⟨hreadable, hsame⟩ := scalar_readable h 0
  cases hreadable with
  | str points => exact ⟨points, hsame⟩

theorem int_sendable {n : Int} (h : n.natAbs < 10 ^ 18) : Sendable (.int n) :=
  Nat.le_trans (natStr_length_le (k := 18) (by decide) h) (by decide)

theorem hex_scalar (b : Bytes) : (hex b).all isScalar = true :=
  isScalar_of_isLatin1 (isLatin1_of_isAscii (isAscii_hex b))

theorem latencyMs_lt (started ended : Datetime) :
    (latencyMs (ended.us - started.us)).natAbs < 10 ^ 18 := by
  have hduration : |((ended.us - started.us : Int) : ℚ) / 10 ^ 6| ≤ 315537897600 := by
    have hstarted : (-62135596800000000 : ℚ) ≤ started.us := by exact_mod_cast started.lower
    have hended : (-62135596800000000 : ℚ) ≤ ended.us := by exact_mod_cast ended.lower
    have hstarted' : (started.us : ℚ) < 253402300800000000 := by exact_mod_cast started.upper
    have hended' : (ended.us : ℚ) < 253402300800000000 := by exact_mod_cast ended.upper
    rw [abs_le]
    push_cast
    constructor <;> linarith
  have hseconds := nearestDouble_within hduration
  rw [latencyMs]
  generalize nearestDouble (((ended.us - started.us : Int) : ℚ) / 10 ^ 6) = seconds at hseconds ⊢
  have hmillis : |seconds * 1000| ≤ 315537897601 * 1000 := by
    rw [abs_le] at hduration hseconds ⊢
    constructor <;> linarith
  have hproduct := nearestDouble_within hmillis
  have htruncate := abs_truncate_le (nearestDouble (seconds * 1000))
  have hbound : |((truncate (nearestDouble (seconds * 1000)) : Int) : ℚ)| < 10 ^ 18 := by
    rw [abs_le] at hmillis hproduct
    refine lt_of_le_of_lt htruncate ?_
    rw [abs_lt]
    constructor <;> linarith
  have hint : |truncate (nearestDouble (seconds * 1000))| < 10 ^ 18 := by exact_mod_cast hbound
  rw [abs_lt] at hint
  omega

/-- The event of a verdict is sent, and is its row at the other end. -/
theorem verdict_sent (h : Sound record) (seen : Seen) : ∃ content,
    payload d (verdictEvent d record seen) = .ok content ∧
    requestOf d (verdictEvent d record seen) = .ok ⟨d.eventsUrl, content,
      app.forwardedHeaders d.lib.hmac d.internalSecret INGEST_PROVIDER_LABEL content⟩ ∧
    ingest.rowOf d.decoding content = some (verdictRow d (record, seen)) := by
  have hlatency := int_sendable (latencyMs_lt seen.started seen.ended)
  have hstatus : Sendable (.int record.upstreamStatus) := int_sendable (by have := h.status; omega)
  have hbytes : Sendable (.int record.body.length) :=
    int_sendable (by have := h.size; unfold app.MAX_BODY_BYTES at this; omega)
  have hsend : ∀ v ∈ (verdictEvent d record seen).fields, Sendable v := by
    simp only [VerifyEvent.fields, verdictEvent, List.forall_mem_cons]
    exact ⟨(scalar_sendable h.route).1, (scalar_sendable h.provider).1,
      (scalar_sendable h.verdict_scalar).1, (scalar_sendable h.reason).1, hstatus, hlatency, hbytes,
      (scalar_sendable (hex_scalar _)).1, (scalar_sendable seen.scalar).1, List.forall_mem_nil _⟩
  obtain ⟨content, hpayload, hdecode, hrow⟩ := @ingest.rowOf_payload d.py d.fromisoformat d.mktime
    (verdictEvent d record seen) seen.now d.depth (utc_ofUtc seen.now) hsend
  refine ⟨content, hpayload, ingest.post_eq hpayload, ?_⟩
  have hsame : (verdictEvent d record seen).sentRow seen.now = verdictRow d (record, seen) := by
    simp only [VerifyEvent.sentRow, verdictEvent, verdictRow, (scalar_sendable h.route).2,
      (scalar_sendable h.provider).2, (scalar_sendable h.verdict_scalar).2,
      (scalar_sendable h.reason).2, (scalar_sendable (hex_scalar _)).2,
      (scalar_sendable seen.scalar).2, paired]
  unfold ingest.rowOf Deployment.decoding
  rw [hdecode]
  simp only [hrow, hsame]
  rfl

end Calls

/-! ## What is kept -/

section Runs
variable {Certificate PublicKey : Type} {d : Deployment Certificate PublicKey}
  {σ : State Certificate}

/-- What every state of a run satisfies in which nothing is forged. -/
structure Kept (d : Deployment Certificate PublicKey) (σ : State Certificate) : Prop where
  serving : Serving d σ.routes
  calls : ∀ record ∈ σ.calls, Sound record
  sound : ∀ x ∈ σ.recorded, Sound x.1
  emitter : emitter.Runs σ.emitter
  /-- What the emitter has are the events of verdicts. -/
  recorded : ∀ event ∈ σ.emitter.recorded, ∃ x ∈ σ.recorded, event = verdictEvent d x.1 x.2
  forwarded : ∀ x ∈ σ.forwarded,
    x.1 ∈ [lit "github", lit "paypal", lit "shopify", lit "stripe"]
  inFlight : ∀ request ∈ σ.inFlight, ∃ event ∈ σ.emitter.attempted,
    requestOf d event = .ok request
  loop : ticker.Kept σ.console.loop
  /-- What the batcher has are rows of verdicts, and the table has no others. -/
  enqueued : ∀ row ∈ σ.console.loop.enqueued, ∃ x ∈ σ.recorded, row = verdictRow d x
  table : ∀ r ∈ σ.console.store.db.events, ∃ x ∈ σ.recorded,
    r.content = (verdictRow d x).row d.eng 0

theorem Kept.attempted (h : Kept d σ) {event : VerifyEvent} (he : event ∈ σ.emitter.attempted) :
    ∃ x ∈ σ.recorded, ∃ content, payload d event = .ok content ∧
      requestOf d event = .ok ⟨d.eventsUrl, content,
        app.forwardedHeaders d.lib.hmac d.internalSecret INGEST_PROVIDER_LABEL content⟩ ∧
      ingest.rowOf d.decoding content = some (verdictRow d x) := by
  obtain ⟨x, hx, rfl⟩ := h.recorded event (h.emitter.attempted event he)
  exact ⟨x, hx, verdict_sent (h.sound x hx) x.2⟩

/-- Of two texts that are signed under providers without a dot, both parts are the same. -/
theorem preimage_dotless {p p' b b' : Bytes} (hp : 46 ∉ p) (hp' : 46 ∉ p')
    (h : gatewaysig.preimage p b = gatewaysig.preimage p' b') : p = p' ∧ b = b' := by
  rcases upstream.preimage_eq_iff.mp h with heq | ⟨x, rfl, -⟩ | ⟨x, rfl, -⟩
  · exact heq
  · exact absurd (by simp) hp'
  · exact absurd (by simp) hp

theorem provider_dotless {provider : Str}
    (h : provider ∈ [lit "github", lit "paypal", lit "shopify", lit "stripe"]) :
    46 ∉ provider.map UInt8.ofNat ∧
      provider.map UInt8.ofNat ≠ bytesLit "console-ingest" := by
  have hall : ∀ provider ∈ [lit "github", lit "paypal", lit "shopify", lit "stripe"],
      46 ∉ provider.map UInt8.ofNat ∧
        provider.map UInt8.ofNat ≠ bytesLit "console-ingest" := by
    decide
  exact hall provider h

theorem Kept.ingest_row (h : Kept d σ) {headers : Headers} {body : Bytes}
    (hunforged : Unforged d σ (.ingest headers body)) {row : Event}
    (hrow : (pipeline.Action.ingest headers body).event d.lib.hmac d.decoding d.internalSecret =
      some row) : ∃ x ∈ σ.recorded, row = verdictRow d x := by
  obtain ⟨hsigned, hrow⟩ := event_eq_some_iff.mp hrow
  have hlabel : 46 ∉ bytesLit "console-ingest" := by decide
  rcases hunforged hsigned with ⟨x, hx, heq⟩ | ⟨event, he, content, hcontent, heq⟩
  · -- no provider is the label
    obtain ⟨hdot, hne⟩ := provider_dotless (h.forwarded x hx)
    exact absurd (preimage_dotless hlabel hdot heq).1.symm hne
  · obtain ⟨x, hx, content', hcontent', -, hsent⟩ := h.attempted he
    obtain rfl : content = content' := Except.ok.inj (hcontent.symm.trans hcontent')
    obtain ⟨-, rfl⟩ := preimage_dotless hlabel hlabel heq
    exact ⟨x, hx, Option.some.inj (hrow.symm.trans hsent)⟩

theorem handler_serves {route : Route} {secret : Str} {verifier : Verifier Certificate}
    (h : app.Serves d.lib route secret verifier) (stream : List Bytes) (headers : Headers)
    (moment : Moment) (answers : Answers) :
    app.Serves d.lib route secret (app.handler d.lib route d.internalSecret answers.post verifier
      stream headers moment).verifier := by
  unfold app.handler
  cases app.readCappedBody stream with
  | none => exact h
  | some body =>
    have hverified := h.verified body headers moment
    simp only
    generalize verifier.verify d.lib body headers moment = result at hverified ⊢
    obtain ⟨result, verifier'⟩ := result
    cases result with
    | error e => cases e <;> exact hverified
    | ok u =>
      simp only
      generalize app.forward d.lib route d.internalSecret answers.post body = forwarded
      obtain ⟨posts, answer⟩ := forwarded
      cases answer <;> exact hverified

theorem hook_kept (h : Kept d σ) (i : Nat) (stream : List Bytes) (headers : Headers)
    (moment : Moment) (answers : Answers) :
    Kept d (σ.hook d i stream headers moment answers) := by
  unfold State.hook outcome
  cases hroute : σ.routes[i]? with
  | none => exact h
  | some rv =>
    obtain ⟨route, verifier⟩ := rv
    obtain ⟨secret, hserves⟩ := h.serving _ (List.mem_of_getElem? hroute)
    simp only [Option.map_some]
    refine ⟨?_, ?_, h.sound, h.emitter, h.recorded, ?_, h.inFlight, h.loop, h.enqueued, h.table⟩
    · intro rv hrv
      rcases List.mem_or_eq_of_mem_set hrv with hrv | rfl
      · exact h.serving rv hrv
      · exact ⟨secret, handler_serves hserves stream headers moment answers⟩
    · intro record hrecord
      rcases List.mem_append.mp hrecord with hrecord | hrecord
      · exact h.calls record hrecord
      · exact (handler_verdict hrecord).sound
    · intro x hx
      rcases List.mem_append.mp hx with hx | hx
      · exact h.forwarded x hx
      · obtain ⟨request, -, rfl⟩ := List.mem_map.mp hx
        exact app.serves_provider hserves

theorem record_kept (h : Kept d σ) (j : Nat) (seen : Seen) : Kept d (σ.record d j seen) := by
  unfold State.record
  cases hcall : σ.calls[j]? with
  | none => exact h
  | some record =>
    have hsound := h.calls record (List.mem_of_getElem? hcall)
    have hmore : ∀ {P : app.Record × Seen → Prop}, (∃ x ∈ σ.recorded, P x) →
        ∃ x ∈ σ.recorded ++ [(record, seen)], P x := by
      rintro P ⟨x, hx, hP⟩
      exact ⟨x, List.mem_append_left _ hx, hP⟩
    refine ⟨h.serving, ?_, ?_, h.emitter.step (.record (verdictEvent d record seen)), ?_,
      h.forwarded, ?_, h.loop, fun row hrow => hmore (h.enqueued row hrow),
      fun r hr => hmore (h.table r hr)⟩
    · intro record' hrecord'
      exact h.calls record' (List.mem_of_mem_eraseIdx hrecord')
    · intro x hx
      rcases List.mem_append.mp hx with hx | hx
      · exact h.sound x hx
      · rw [List.mem_singleton.mp hx]
        exact hsound
    · intro event hevent
      rcases emitter.mem_record hevent with hevent | rfl
      · exact hmore (h.recorded event hevent)
      · exact ⟨(record, seen), by simp, rfl⟩
    · intro request hrequest
      obtain ⟨event, hevent, hpost⟩ := h.inFlight request hrequest
      exact ⟨event, (emitter.record_attempted σ.emitter _).symm ▸ hevent, hpost⟩

theorem emit_kept (h : Kept d σ) (a : emitter.Action VerifyEvent) : Kept d (σ.emit d a) := by
  by_cases ha : ∀ event, a ≠ .record event
  · have hemit : σ.emit d a = { σ with
        emitter := emitter.step σ.emitter a
        inFlight := σ.inFlight ++ ((emitter.step σ.emitter a).attempted.drop
          σ.emitter.attempted.length).filterMap fun event => (requestOf d event).toOption } := by
      cases a with
      | record event => exact absurd rfl (ha event)
      | _ => rfl
    obtain ⟨events, hattempted⟩ := emitter.step_attempted σ.emitter a
    rw [hemit]
    refine ⟨h.serving, h.calls, h.sound, h.emitter.step a, ?_, h.forwarded, ?_, h.loop,
      h.enqueued, h.table⟩
    · rw [emitter.step_recorded σ.emitter ha]
      exact h.recorded
    · intro request hrequest
      rcases List.mem_append.mp hrequest with hrequest | hrequest
      · obtain ⟨event, hevent, hpost⟩ := h.inFlight request hrequest
        exact ⟨event, by rw [hattempted]; exact List.mem_append_left _ hevent, hpost⟩
      · obtain ⟨event, hevent, hpost⟩ := List.mem_filterMap.mp hrequest
        refine ⟨event, List.mem_of_mem_drop hevent, ?_⟩
        cases hresult : requestOf d event with
        | error e =>
          rw [hresult] at hpost
          cases hpost
        | ok request' =>
          rw [hresult] at hpost
          rw [Option.some.inj hpost]
  · obtain ⟨event, rfl⟩ := Classical.not_forall_not.mp ha
    exact h

theorem ingested_kept (h : Kept d σ) {headers : Headers} {body : Bytes}
    (hrow : ∀ row, (pipeline.Action.ingest headers body).event d.lib.hmac d.decoding
      d.internalSecret = some row → ∃ x ∈ σ.recorded, row = verdictRow d x) :
    Kept d { σ with console := ingested d σ.console headers body } := by
  unfold ingested
  cases hevent : (pipeline.Action.ingest headers body).event d.lib.hmac d.decoding
      d.internalSecret with
  | none => exact h
  | some row =>
    refine ⟨h.serving, h.calls, h.sound, h.emitter, h.recorded, h.forwarded, h.inFlight,
      ticker.enqueue_kept h.loop row, ?_, h.table⟩
    intro row' hrow'
    rcases List.mem_append.mp hrow' with hrow' | hrow'
    · exact h.enqueued row' hrow'
    · rw [List.mem_singleton.mp hrow']
      exact hrow row hevent

theorem Kept.unforged (h : Kept d σ) {request : app.UpstreamRequest}
    (hrequest : request ∈ σ.inFlight) : Unforged d σ (.ingest request.headers request.content) := by
  obtain ⟨event, hevent, hpost⟩ := h.inFlight request hrequest
  obtain ⟨-, -, content, hcontent, hsent, -⟩ := h.attempted hevent
  obtain rfl := Except.ok.inj (hpost.symm.trans hsent)
  exact fun _ => .inr ⟨event, hevent, content, hcontent, rfl⟩

theorem arrive_kept (h : Kept d σ) (j : Nat) : Kept d (σ.arrive d j) := by
  unfold State.arrive
  cases hrequest : σ.inFlight[j]? with
  | none => exact h
  | some request =>
    have hunforged := h.unforged (List.mem_of_getElem? hrequest)
    have hkept := ingested_kept h fun row hrow => h.ingest_row hunforged hrow
    exact { hkept with
      inFlight := fun request' hrequest' => h.inFlight _ (List.mem_of_mem_eraseIdx hrequest') }

theorem lose_kept (h : Kept d σ) (j : Nat) : Kept d (σ.lose j) := by
  unfold State.lose
  cases σ.inFlight[j]? with
  | none => exact h
  | some request => exact { h with
      inFlight := fun request' hrequest' => h.inFlight _ (List.mem_of_mem_eraseIdx hrequest') }

theorem writes_enqueued {console : flush.State} (h : ticker.Kept console.loop)
    {a : flush.Action} {pending : List Event} (hwrites : console.writes a = some pending) :
    pending.Sublist console.loop.enqueued := by
  unfold flush.State.writes at hwrites
  split at hwrites
  · next job hact =>
    obtain ⟨j, hj, rfl⟩ := Option.map_eq_some_iff.mp hwrites
    obtain ⟨hget, -⟩ := Option.filter_eq_some_iff.mp hj
    have hbatch : j.pending ∈ console.loop.batches :=
      List.mem_map_of_mem (List.mem_of_getElem? hget)
    have hflat : j.pending.Sublist console.loop.batches.flatten :=
      List.sublist_flatten_of_mem hbatch
    exact (hflat.trans (List.sublist_append_left _ _)).trans h.flow.order
  · cases hwrites

theorem work_kept (h : Kept d σ) (a : flush.Action) : Kept d (σ.work d a) := by
  by_cases ha : ∀ event, a.act ≠ .enqueue event
  · have hwork : σ.work d a = { σ with console := flush.step d.eng σ.console a } := by
      unfold State.work
      split
      · next event hact => exact absurd hact (ha event)
      · rfl
    rw [hwork]
    refine ⟨h.serving, h.calls, h.sound, h.emitter, h.recorded, h.forwarded, h.inFlight,
      ticker.step_kept h.loop a.act, ?_, ?_⟩
    · show ∀ row ∈ (ticker.step σ.console.loop a.act).enqueued, _
      rw [ticker.step_enqueued σ.console.loop ha]
      exact h.enqueued
    · show ∀ r ∈ (flush.step d.eng σ.console a).store.db.events, _
      unfold flush.step
      cases hwrites : σ.console.writes a with
      | none => exact h.table
      | some pending =>
        intro r hr
        have hcontent := List.mem_map_of_mem (f := EventRow.content) hr
        rw [batcher.persist_events, insertEvents_content] at hcontent
        rcases List.mem_append.mp hcontent with hold | hnew
        · obtain ⟨r', hr', heq⟩ := List.mem_map.mp hold
          rw [← heq]
          exact h.table r' hr'
        · obtain ⟨row, hrow, heq⟩ := List.mem_map.mp hnew
          have hpending : row ∈ pending := (Sqlite.admitted_initial _ _).subset hrow
          obtain ⟨x, hx, rfl⟩ := h.enqueued row ((writes_enqueued h.loop hwrites).subset hpending)
          exact ⟨x, hx, heq.symm⟩
  · obtain ⟨event, hact⟩ := Classical.not_forall_not.mp ha
    unfold State.work
    rw [hact]
    exact h

theorem sweep_kept (h : Kept d σ) (busy : Option Msg) (cutoffMs : Int) :
    Kept d (σ.sweep busy cutoffMs) := by
  have hsub := tail.deleteEventsOlderThan_sublist busy σ.console.store cutoffMs
  exact { h with table := fun r hr => h.table r (hsub.subset hr) }

theorem step_kept (h : Kept d σ) {a : Action}
    (hunforged : ∀ headers body, a = .ingest headers body → Unforged d σ a) :
    Kept d (step d σ a) := by
  cases a with
  | hook i stream headers moment answers => exact hook_kept h i stream headers moment answers
  | record j seen => exact record_kept h j seen
  | emit a => exact emit_kept h a
  | arrive j => exact arrive_kept h j
  | lose j => exact lose_kept h j
  | ingest headers body =>
    exact ingested_kept h fun row hrow => h.ingest_row (hunforged headers body rfl) hrow
  | upstream headers body => exact h
  | console a => exact work_kept h a
  | sweep busy cutoffMs => exact sweep_kept h busy cutoffMs

theorem start_kept {routes : List (Route × Verifier Certificate)} (h : Serving d routes) :
    Kept d (start d routes) := by
  have hruns := @emitter.runs_start VerifyEvent d.eventsUrl
  have hempty : (start d routes).emitter.recorded = [] := emitter.start_recorded d.eventsUrl
  refine ⟨h, List.forall_mem_nil _, List.forall_mem_nil _, hruns, ?_, List.forall_mem_nil _,
    List.forall_mem_nil _, ticker.run_kept [], List.forall_mem_nil _, List.forall_mem_nil _⟩
  rw [hempty]
  exact List.forall_mem_nil _

theorem run_kept {routes : List (Route × Verifier Certificate)} (hserving : Serving d routes)
    {actions : List Action} (h : Along (step d) (Unforged d) (start d routes) actions) :
    Kept d (run d routes actions) := by
  induction actions using List.reverseRecOn with
  | nil => exact start_kept hserving
  | append_singleton actions a ih =>
    obtain ⟨hrest, hlast⟩ := Along.concat_iff.mp h
    rw [run, List.foldl_append]
    exact step_kept (ih hrest) fun _ _ _ => hlast

/-! ## Where verdicts come from -/

/-- A step records verdicts of calls that wait, and lets new ones wait. -/
theorem step_calls (σ : State Certificate) (a : Action) :
    ((step d σ a).recorded.map Prod.fst ++ (step d σ a).calls).Perm
      (σ.recorded.map Prod.fst ++ σ.calls ++ judged d σ a) := by
  have hsame : (σ.recorded.map Prod.fst ++ σ.calls).Perm
      (σ.recorded.map Prod.fst ++ σ.calls ++ []) := by rw [List.append_nil]
  cases a with
  | hook i stream headers moment answers =>
    simp only [step, State.hook, judged]
    cases outcome d σ i stream headers moment answers with
    | none => exact hsame
    | some r =>
      obtain ⟨route, result⟩ := r
      simp
  | record j seen =>
    simp only [step, State.record, judged]
    cases hcall : σ.calls[j]? with
    | none => exact hsame
    | some record =>
      obtain ⟨hlt, rfl⟩ := List.getElem?_eq_some_iff.mp hcall
      have hmoved := List.getElem_cons_eraseIdx_perm hlt
      simp only [List.map_append, List.map_cons, List.map_nil, List.append_nil, List.append_assoc,
        List.singleton_append]
      exact hmoved.append_left _
  | emit a =>
    simp only [step, State.emit, judged]
    split <;> exact hsame
  | arrive j =>
    simp only [step, State.arrive, judged]
    split <;> exact hsame
  | lose j =>
    simp only [step, State.lose, judged]
    split <;> exact hsame
  | console a =>
    simp only [step, State.work, judged]
    split <;> exact hsame
  | ingest headers body => exact hsame
  | upstream headers body => exact hsame
  | sweep busy cutoffMs => exact hsame

/-- The verdicts that were recorded, and those that wait, are those of the calls of the
    run, each once. -/
theorem run_calls (routes : List (Route × Verifier Certificate)) (actions : List Action) :
    ((run d routes actions).recorded.map Prod.fst ++ (run d routes actions).calls).Perm
      (collect (step d) (judged d) (start d routes) actions) := by
  induction actions using List.reverseRecOn with
  | nil => exact .nil
  | append_singleton actions a ih =>
    rw [run, List.foldl_append, collect_concat]
    exact (step_calls _ a).trans (ih.append_right _)

theorem step_forwarded (σ : State Certificate) (a : Action) :
    (step d σ a).forwarded = σ.forwarded ++ forwards d σ a := by
  cases a with
  | hook i stream headers moment answers =>
    simp only [step, State.hook, forwards]
    cases outcome d σ i stream headers moment answers with
    | none => simp
    | some r => simp
  | record j seen =>
    simp only [step, State.record, forwards]
    split <;> simp
  | emit a =>
    simp only [step, State.emit, forwards]
    split <;> simp
  | arrive j =>
    simp only [step, State.arrive, forwards]
    split <;> simp
  | lose j =>
    simp only [step, State.lose, forwards]
    split <;> simp
  | console a =>
    simp only [step, State.work, forwards]
    split <;> simp
  | ingest headers body => simp [step, forwards]
  | upstream headers body => simp [step, forwards]
  | sweep busy cutoffMs => simp [step, State.sweep, forwards]

theorem run_forwarded (routes : List (Route × Verifier Certificate)) (actions : List Action) :
    (run d routes actions).forwarded =
      collect (step d) (forwards d) (start d routes) actions := by
  induction actions using List.reverseRecOn with
  | nil => rfl
  | append_singleton actions a ih =>
    rw [run, List.foldl_append, collect_concat, ← ih]
    exact step_forwarded _ a

theorem exists_of_judged {a : Action} {record : app.Record} (h : record ∈ judged d σ a) :
    ∃ i stream headers moment answers route verifier,
      a = .hook i stream headers moment answers ∧ σ.routes[i]? = some (route, verifier) ∧
      Verdict d route verifier stream.flatten headers moment record := by
  cases a with
  | hook i stream headers moment answers =>
    simp only [judged, outcome] at h
    cases hroute : σ.routes[i]? with
    | none =>
      rw [hroute] at h
      cases h
    | some rv =>
      rw [hroute] at h
      exact ⟨i, stream, headers, moment, answers, rv.1, rv.2, rfl, hroute, handler_verdict h⟩
  | _ => cases h

theorem forward_content {route : Route} {answers : Answers} {body : Bytes}
    {request : app.UpstreamRequest}
    (h : request ∈ (app.forward d.lib route d.internalSecret answers.post body).1) :
    request.content = body := by
  unfold app.forward at h
  split at h
  · cases h
  · split at h
    · cases h
    · simp only at h
      split at h
      · rw [List.mem_singleton.mp h]
      · rw [List.mem_singleton.mp h]
      · split at h
        · rw [List.mem_singleton.mp h]
        · rw [List.mem_singleton.mp h]

/-- What is forwarded was verified by the route. -/
theorem exists_of_forwards {a : Action} {x : Str × Bytes} (h : x ∈ forwards d σ a) :
    ∃ i stream headers moment answers route verifier,
      a = .hook i stream headers moment answers ∧ σ.routes[i]? = some (route, verifier) ∧
      x = (route.provider, stream.flatten) ∧
      (verifier.verify d.lib stream.flatten headers moment).1 = .ok () := by
  cases a with
  | hook i stream headers moment answers =>
    simp only [forwards, outcome] at h
    cases hroute : σ.routes[i]? with
    | none =>
      rw [hroute] at h
      cases h
    | some rv =>
      rw [hroute] at h
      obtain ⟨request, hrequest, rfl⟩ := List.mem_map.mp h
      rw [app.handler_posts] at hrequest
      split at hrequest
      · next hverified =>
        exact ⟨i, stream, headers, moment, answers, rv.1, rv.2, rfl, hroute,
          by rw [forward_content hrequest], hverified.2⟩
      · cases hrequest
  | _ => cases h

/-- Whatever is sent to the Console, in whatever order and however often, if what nobody
    signed is not accepted: each row of its table is of a call of a handler of the run, on a
    route the Gateway had; it says what became of exactly that body there, and when. -/
theorem rows_authentic {routes : List (Route × Verifier Certificate)}
    (hserving : Serving d routes) {actions : List Action}
    (h : Along (step d) (Unforged d) (start d routes) actions) :
    ∀ r ∈ (run d routes actions).console.store.db.events,
      ∃ before i stream headers moment answers after route verifier record seen,
        actions = before ++ .hook i stream headers moment answers :: after ∧
        (run d routes before).routes[i]? = some (route, verifier) ∧
        Verdict d route verifier stream.flatten headers moment record ∧
        r.content = (verdictRow d (record, seen)).row d.eng 0 := by
  intro r hr
  obtain ⟨x, hx, hcontent⟩ := (run_kept hserving h).table r hr
  have hjudged : x.1 ∈ collect (step d) (judged d) (start d routes) actions :=
    (run_calls routes actions).mem_iff.mp
      (List.mem_append_left _ (List.mem_map_of_mem (f := Prod.fst) hx))
  obtain ⟨before, a, after, hactions, hstep⟩ := exists_of_mem_collect hjudged
  obtain ⟨i, stream, headers, moment, answers, route, verifier, rfl, hroute, hverdict⟩ :=
    exists_of_judged hstep
  exact ⟨before, i, stream, headers, moment, answers, after, route, verifier, x.1, x.2, hactions,
    hroute, hverdict, hcontent⟩

/-- Of two texts, one under a provider without a dot and one under an ASCII one, both parts
    are the same. -/
theorem provider_of_preimage {provider provider' : Str} {p body body' : Bytes}
    (hdot : 46 ∉ provider) (hp : encodeUtf8 provider = some p) (hascii : isAscii provider' = true)
    (hdot' : 46 ∉ provider'.map UInt8.ofNat)
    (h : gatewaysig.preimage p body = gatewaysig.preimage (provider'.map UInt8.ofNat) body') :
    provider = provider' ∧ body = body' := by
  have hp' : encodeUtf8 provider' = some (provider'.map UInt8.ofNat) := encodeUtf8_ascii hascii
  rcases upstream.preimage_eq_iff.mp h with ⟨rfl, rfl⟩ | ⟨x, heq, -⟩ | ⟨x, rfl, -⟩
  · exact ⟨encodeUtf8_injective hp hp', rfl⟩
  · rw [heq] at hdot'
    exact absurd (by simp) hdot'
  · -- a dot in the octets is one in the text
    obtain ⟨q, rfl, -⟩ := encodeUtf8_split_ascii (c := 46) (by decide) hp' hp
    exact absurd (by simp) hdot

/-- If what nobody signed is not accepted, then what the upstream accepts under a provider
    without a dot was verified, this very body, by a route of this provider; or it is an
    event that the Gateway recorded, under the label of the event feed. -/
theorem upstream_authentic {routes : List (Route × Verifier Certificate)}
    (hserving : Serving d routes) {actions : List Action} {headers : Headers} {body : Bytes}
    (h : Along (step d) (Unforged d) (start d routes) (actions ++ [.upstream headers body]))
    (haccepts : upstream.Accepts d.lib.hmac d.internalSecret headers body)
    (hdot : 46 ∉ (headers.get gatewaysig.PROVIDER_HEADER).getD []) :
    (∃ before i stream hookHeaders moment answers after route verifier,
      actions = before ++ .hook i stream hookHeaders moment answers :: after ∧
      (run d routes before).routes[i]? = some (route, verifier) ∧
      route.provider = (headers.get gatewaysig.PROVIDER_HEADER).getD [] ∧
      stream.flatten = body ∧
      (verifier.verify d.lib body hookHeaders moment).1 = .ok ()) ∨
    ((headers.get gatewaysig.PROVIDER_HEADER).getD [] = INGEST_PROVIDER_LABEL ∧
      ∃ x ∈ (run d routes actions).recorded, payload d (verdictEvent d x.1 x.2) = .ok body) := by
  obtain ⟨hrest, hlast⟩ := Along.concat_iff.mp h
  have hkept := run_kept hserving hrest
  obtain ⟨p, hp, -⟩ := gatewaysig.verify_ok_iff.mp (upstream.accepts_iff.mp haccepts)
  rcases hlast haccepts p hp with ⟨x, hx, heq⟩ | ⟨event, hevent, content, hcontent, heq⟩
  · left
    have hprovider := hkept.forwarded x hx
    have known : ∀ p ∈ [lit "github", lit "paypal", lit "shopify", lit "stripe"],
      isAscii p = true := by decide
    obtain ⟨hlabel, hbody⟩ := provider_of_preimage hdot hp (known _ hprovider)
      (provider_dotless hprovider).1 heq
    have hforwards : x ∈ collect (step d) (forwards d) (start d routes) actions :=
      run_forwarded (d := d) routes actions ▸ hx
    obtain ⟨before, a, after, hactions, hstep⟩ := exists_of_mem_collect hforwards
    obtain ⟨i, stream, hookHeaders, moment, answers, route, verifier, rfl, hroute, rfl,
      hverified⟩ := exists_of_forwards hstep
    subst hbody
    exact ⟨before, i, stream, hookHeaders, moment, answers, after, route, verifier, hactions,
      hroute, hlabel.symm, rfl, hverified⟩
  · right
    have hdot' : 46 ∉ INGEST_PROVIDER_LABEL.map UInt8.ofNat := by decide
    have hlabel : INGEST_PROVIDER_LABEL.map UInt8.ofNat = bytesLit "console-ingest" := by decide
    rw [← hlabel] at heq
    obtain ⟨hprovider, rfl⟩ := provider_of_preimage hdot hp ingest.isAscii_label hdot' heq
    obtain ⟨x, hx, rfl⟩ := hkept.recorded event (hkept.emitter.attempted event hevent)
    exact ⟨hprovider, x, hx, hcontent⟩

end Runs

/-! ## A push and its event -/

/-- What the event of a push is sent as. -/
def pushPayload : Bytes :=
  bytesLit "\x7b\"ts\":\"1970-01-01T00:00:00Z\",\"path\":\"/g\",\"provider\":\"github\"," ++
  bytesLit "\"verdict\":\"accepted\",\"reason\":\"\",\"upstream_status\":200," ++
  bytesLit "\"latency_ms\":0,\"body_bytes\":2,\"body_sha256\":" ++
  bytesLit "\"fb8e20fc2e4c3f248c60c39bd652f3c1347298bb977b8b4d5903b85055620603\"," ++
  bytesLit "\"remote_ip\":\"127.0.0.1\"\x7d"

/-- HMAC-SHA256 under the key `k`, of the event as of the push. -/
def pushMac (key message : Bytes) : Bytes :=
  if message = gatewaysig.preimage (bytesLit "console-ingest") pushPayload then
    [176, 7, 224, 200, 69, 168, 240, 9, 5, 42, 112, 182, 166, 142, 240, 61, 206, 118, 99, 58, 136,
     35, 177, 127, 188, 246, 245, 80, 111, 183, 228, 40]
  else app.pushLibraries.hmac key message

/-- A Gateway and a Console under that key, and the SHA-256 of `ab`. -/
def pushDeployment : Deployment Unit Unit where
  lib := { app.pushLibraries with hmac := pushMac }
  sha256 _ := [251, 142, 32, 252, 46, 76, 63, 36, 140, 96, 195, 155, 214, 82, 243, 193, 52, 114,
    152, 187, 151, 123, 139, 77, 89, 3, 184, 80, 85, 98, 6, 3]
  py := .plain
  depth := by decide
  fromisoformat _ := .error .overflowError
  mktime seconds := .ok seconds
  eng := .plain
  internalSecret := bytesLit "k"
  eventsUrl := lit "http://c/ingest"

def pushRoutes : List (Route × Verifier Unit) :=
  [(⟨lit "/g", lit "github", lit "u", [], [], [], by decide⟩, .github ⟨bytesLit "k"⟩)]

def pushSeen : Seen := ⟨.epoch, .epoch, .epoch, lit "127.0.0.1", by decide⟩

def pushRecord : app.Record :=
  ⟨lit "/g", lit "github", lit "accepted", [], 200, bytesLit "ab"⟩

/-- A push is forwarded and answered 200, and its event is posted. -/
def pushed : List Action :=
  [.hook 0 [bytesLit "a", bytesLit "b"] app.pushHeaders Moment.bare
      ⟨fun _ => .ok ⟨200, [], none⟩, fun _ _ h => Except.ok.inj h ▸ by decide⟩,
    .record 0 pushSeen, .emit .resume, .emit .getter, .emit .resume]

/-- The headers of the event. -/
def eventHeaders : Headers :=
  ingest.feedHeaders "b007e0c845a8f009052a70b6a68ef03dce76633a8823b17fbcf6f5506fb7e428"

theorem pushed_attempted : (run pushDeployment pushRoutes pushed).emitter.attempted =
    [verdictEvent pushDeployment pushRecord pushSeen] := rfl

theorem payload_pushed :
    payload pushDeployment (verdictEvent pushDeployment pushRecord pushSeen) =
      .ok pushPayload := by
  decide +kernel

theorem serving_push : Serving pushDeployment pushRoutes := by
  intro rv hrv
  rw [List.mem_singleton.mp hrv]
  exact ⟨lit "k", .built rfl⟩

theorem signed_pushed : (run pushDeployment pushRoutes pushed).Signed pushDeployment
    (gatewaysig.preimage (bytesLit "console-ingest") pushPayload) :=
  .inr ⟨_, pushed_attempted ▸ List.mem_singleton_self _, _, payload_pushed, rfl⟩

/-- The push, and its event accepted twice. -/
def replayed : List Action :=
  pushed ++ [.ingest eventHeaders pushPayload, .arrive 0, .console ⟨.resume, {}⟩,
    .console ⟨.resume, {}⟩, .console ⟨.write 0, {}⟩]

/-- Both rows are of the push. -/
theorem rows_authentic_replayed :
    (run pushDeployment pushRoutes replayed).console.store.db.events.length = 2 ∧
      ∀ r ∈ (run pushDeployment pushRoutes replayed).console.store.db.events,
        ∃ route verifier body headers moment record seen,
          Verdict pushDeployment route verifier body headers moment record ∧
          r.content = (verdictRow pushDeployment (record, seen)).row .plain 0 := by
  refine ⟨by decide +kernel, ?_⟩
  intro r hr
  have hunforged : Along (step pushDeployment) (Unforged pushDeployment)
      (start pushDeployment pushRoutes) replayed :=
    ⟨trivial, trivial, trivial, trivial, trivial, fun _ => signed_pushed, trivial, trivial,
      trivial, trivial, trivial⟩
  obtain ⟨-, -, stream, headers, moment, -, -, route, verifier, record, seen, -, -, hverdict,
    hcontent⟩ := rows_authentic serving_push hunforged r hr
  exact ⟨route, verifier, stream.flatten, headers, moment, record, seen, hverdict, hcontent⟩

/-- The event is sent to the upstream, and accepted there. -/
theorem upstream_authentic_event :
    upstream.Accepts pushDeployment.lib.hmac pushDeployment.internalSecret eventHeaders
        pushPayload ∧
      ∃ x ∈ (run pushDeployment pushRoutes pushed).recorded,
        payload pushDeployment (verdictEvent pushDeployment x.1 x.2) = .ok pushPayload := by
  have hunforged : Along (step pushDeployment) (Unforged pushDeployment)
      (start pushDeployment pushRoutes) (pushed ++ [.upstream eventHeaders pushPayload]) := by
    refine ⟨trivial, trivial, trivial, trivial, trivial, ?_, trivial⟩
    intro _ provider hprovider
    have hlabel : provider = bytesLit "console-ingest" :=
      Option.some.inj (hprovider.symm.trans (show encodeUtf8 _ = some _ by decide))
    rw [hlabel]
    exact signed_pushed
  have haccepts : upstream.Accepts pushDeployment.lib.hmac pushDeployment.internalSecret
      eventHeaders pushPayload := by
    rw [upstream.accepts_iff]
    decide +kernel
  refine ⟨haccepts, ?_⟩
  rcases upstream_authentic serving_push hunforged haccepts (by decide) with
    ⟨before, i, stream, headers, moment, answers, after, -, -, hactions, -, -, hbody, -⟩ |
    ⟨-, hevent⟩
  · -- the one body that was verified is another
    have hmem : Action.hook i stream headers moment answers ∈ pushed := by
      rw [hactions]
      simp
    simp only [pushed, List.mem_cons, Action.hook.injEq, reduceCtorEq, List.not_mem_nil,
      or_false] at hmem
    obtain ⟨-, rfl, -⟩ := hmem
    exact absurd hbody (by decide)
  · exact hevent

end feed
end HookGuard
