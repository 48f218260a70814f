import HookGuard.Console.Interleaving

/- Requests without the CSRF token of their session (`deps.require_csrf`).

   Every handler but those of login, signup and the password reset asks for the token before
   anything else, so that without it a request comes to no statement (`plan_forged`). Before
   its handler, the middleware alone writes: it deletes or touches the session that the
   request presents (`loaded_framed`). The guard compares texts as they are, and the
   comparison raises on those that are not ASCII (`requireCsrf_answered_iff`). -/
namespace HookGuard
open Py store auth

namespace console

/-- The CSRF token a request presents: its header's, or its form's. -/
def csrfPresented (request : Request) (form : Form) : Str :=
  let header := (request.headers.get (lit "X-CSRF-Token")).getD []
  if header = [] then form.get CSRF_FORM_FIELD [] else header

/-- The request has no session, or presents another token than its session's. -/
def Forged (request : Request) (snapshot : Option Snapshot) (form : Form) : Prop :=
  ∀ s, snapshot = some s → csrfPresented request form ≠ s.session.csrfToken

/-- The handler is behind `require_csrf`, or writes nothing. -/
def Handler.Guarded (handler : Handler) : Prop :=
  handler ≠ .login ∧ handler ≠ .signup ∧ handler ≠ .resetPassword

/-- The steps of a request after its arrival. -/
def Action.Of (i : Nat) : Action → Prop
  | .enter j _ | .resume j _ _ | .abandon j => j = i
  | _ => False

/-- The session that a request presents is deleted, or touched, or left. -/
inductive SessionsFramed (prim : Primitives) (request : Request) (now : Datetime)
    (before after : Sqlite.Table Session) : Prop
  | left (sessions : after = before)
  | deleted {h : Bytes} {id : Nat} {row : Session} (token : presented prim request = .ok (some h))
      (found : before.get id = some row) (hash : row.tokenHash = h)
      (sessions : after = before.delete fun id' _ => id' == id)
  | touched {h : Bytes} {id : Nat} {row : Session} (token : presented prim request = .ok (some h))
      (found : before.get id = some row) (hash : row.tokenHash = h)
      (sessions : after = before.update (fun id' _ => id' == id)
        fun s => { s with lastSeenAt := now.unixMs })

/-- The guard answers as it is to: under the session's own token the handler goes on, and
    any other is answered with 403. -/
def CsrfAnswered (request : Request) (s : Snapshot) (form : Form) : Prop :=
  ∀ rest, requireCsrf request (some s) form rest =
    if csrfPresented request form ≠ [] ∧ csrfPresented request form = s.session.csrfToken then
      rest s
    else .stop (.plain 403 "invalid or missing CSRF token" none)

/-- What a request without the token leaves as it was. -/
structure Framed (prim : Primitives) (request : Request) (now : Datetime) (t t' : Tables) :
    Prop where
  users : t'.users = t.users
  endpoints : t'.endpoints = t.endpoints
  events : t'.events = t.events
  rollups : t'.rollups = t.rollups
  authEvents : t'.authEvents = t.authEvents
  settings : t'.settings = t.settings
  sessions : SessionsFramed prim request now t.sessions t'.sessions

section Guards
variable {prim : Primitives} {request : Request} {snapshot : Option Snapshot} {form : Form}

theorem compareDigest_true {a b : Str} (h : compareDigest a b = .ok true) : a = b := by
  unfold compareDigest at h
  split at h
  · exact beq_iff_eq.mp (Except.ok.inj h)
  · cases h

theorem checkCsrf_true {want got : Str} (h : checkCsrf want got = .ok true) : want = got := by
  unfold checkCsrf at h
  split at h
  · cases h
  · exact compareDigest_true h

theorem forged_not_authorized {s : Snapshot} (h : Forged request snapshot form) :
    ¬ Authorized request snapshot form s := by
  rintro ⟨hloaded, hcsrf⟩
  have hsame : s.session.csrfToken = csrfPresented request form := checkCsrf_true hcsrf
  exact h s hloaded hsame.symm

/-- `require_csrf` lets nothing through without the token. -/
theorem requireCsrf_forged (h : Forged request snapshot form) (rest : Snapshot → Plan) :
    (requireCsrf request snapshot form rest).statements = [] :=
  requireCsrf_induction (P := fun p => p.statements = []) (fun _ => rfl) fun _ hs hcsrf =>
    absurd ⟨hs, hcsrf⟩ (forged_not_authorized h)

theorem forged_unread (h : Forged request snapshot form) (post : Bool) (rest : Snapshot → Plan) :
    (requireCsrf request snapshot (if post then form else []) rest).statements = [] := by
  cases post with
  | true => exact requireCsrf_forged h rest
  | false =>
    show (requireCsrf request snapshot [] rest).statements = []
    by_cases hheader : (request.headers.get (lit "X-CSRF-Token")).getD [] = []
    · -- nothing is presented, and that is never the token
      have hnone : ∀ session, checkRequestCsrf request session [] = .ok false := by
        intro session
        unfold checkRequestCsrf checkCsrf
        simp only [hheader, if_true]
        exact if_pos (.inr rfl)
      unfold requireCsrf
      split
      · rfl
      · simp only [hnone]
        rfl
    · have hpresented : csrfPresented request [] = csrfPresented request form := by
        unfold csrfPresented
        simp only [if_neg hheader]
      apply requireCsrf_forged
      intro s hs
      rw [hpresented]
      exact h s hs

theorem compareDigest_ascii {a b : Str} (ha : isAscii a = true) (hb : isAscii b = true) :
    compareDigest a b = .ok (a == b) := by
  simp only [compareDigest, ha, hb, Bool.and_self, if_true]

theorem compareDigest_raises {a b : Str} (h : ¬ (isAscii a = true ∧ isAscii b = true)) :
    ∃ e, compareDigest a b = .error e := by
  rw [← Bool.and_eq_true] at h
  exact ⟨_, if_neg h⟩

theorem CsrfAnswered.no_error {s : Snapshot} (h : CsrfAnswered request s form) (e : Exc) :
    checkRequestCsrf request s.session form ≠ .error e := by
  intro he
  have hraised := h fun _ => .stop (.plain 403 "invalid or missing CSRF token" none)
  rw [requireCsrf, he, ite_self] at hraised
  cases congrArg Plan.answer hraised

theorem requireCsrf_checked {s : Snapshot} {b : Bool}
    (h : checkCsrf s.session.csrfToken (csrfPresented request form) = .ok b)
    (rest : Snapshot → Plan) :
    requireCsrf request (some s) form rest =
      if b then rest s else .stop (.plain 403 "invalid or missing CSRF token" none) := by
  have hcheck : checkRequestCsrf request s.session form = .ok b := h
  unfold requireCsrf
  simp only [hcheck]
  cases b <;> rfl

/-- **The guard and other characters.** It answers every token as it is to, exactly where
    there are no two texts to compare, or both are ASCII: the comparison refuses the rest. -/
theorem requireCsrf_answered_iff {s : Snapshot} :
    CsrfAnswered request s form ↔
      csrfPresented request form = [] ∨ s.session.csrfToken = [] ∨
      isAscii (csrfPresented request form) = true ∧ isAscii s.session.csrfToken = true := by
  by_cases hempty : s.session.csrfToken = [] ∨ csrfPresented request form = []
  · -- nothing is compared, and nothing is let through
    refine iff_of_true ?_ (hempty.elim (fun h => .inr (.inl h)) .inl)
    intro rest
    have hother : ¬ (csrfPresented request form ≠ [] ∧
        csrfPresented request form = s.session.csrfToken) := by
      rintro ⟨hne, heq⟩
      exact hempty.elim (fun hwant => hne (heq.trans hwant)) hne
    rw [requireCsrf_checked (if_pos hempty), if_neg hother, if_neg Bool.false_ne_true]
  · have hcompared : checkCsrf s.session.csrfToken (csrfPresented request form) =
        compareDigest s.session.csrfToken (csrfPresented request form) := if_neg hempty
    rw [not_or] at hempty
    by_cases hascii : isAscii s.session.csrfToken = true ∧
        isAscii (csrfPresented request form) = true
    · refine iff_of_true ?_ (.inr (.inr hascii.symm))
      intro rest
      rw [requireCsrf_checked (hcompared.trans (compareDigest_ascii hascii.1 hascii.2))]
      by_cases heq : csrfPresented request form = s.session.csrfToken
      · rw [heq, beq_self_eq_true, if_pos rfl, if_pos ⟨hempty.1, rfl⟩]
      · rw [beq_false_of_ne (Ne.symm heq), if_neg Bool.false_ne_true, if_neg fun h => heq h.2]
    · refine iff_of_false ?_ ?_
      · obtain ⟨e, he⟩ := compareDigest_raises hascii
        exact fun h => CsrfAnswered.no_error h e (hcompared.trans he)
      · rintro (h | h | h)
        · exact hempty.2 h
        · exact hempty.1 h
        · exact hascii h.symm

theorem attached_of_join {r : Except Exc (Option Snapshot)} {s : Snapshot}
    (h : r.toOption.join = some s) : r = .ok (some s) := by
  cases r with
  | error e => cases h
  | ok snapshot => exact congrArg Except.ok h

/-- Ann, who is signed in, submits a token with an accent, and the guard raises. -/
theorem requireCsrf_accent :
    let σ := (Action.whole 0 .signup (.withToken "") (.ofFields [("email", "ann@example.com"),
      ("password", "a long password"), ("password_confirm", "a long password")])
      (.drawing "s1")).foldl (step .plain true) { tables := {} }
    ∃ s, (load .plain σ.tables (.withToken "s1") .epoch).2 = .ok (some s) ∧
      ¬ CsrfAnswered (.withToken "s1") s (.ofFields [("csrf_token", "\u00e9")]) := by
  intro σ
  have hsigned : ((load .plain σ.tables (.withToken "s1") .epoch).2.toOption.join.map
      fun s => s.session.csrfToken) = some (lit "s1") := by decide +kernel
  obtain ⟨s, hs, htoken⟩ := Option.map_eq_some_iff.mp hsigned
  refine ⟨s, ?_, ?_⟩
  · exact attached_of_join hs
  · intro h
    apply h.no_error
      (.typeError (msg "comparing strings with non-ASCII characters is not supported"))
    show checkCsrf s.session.csrfToken _ = _
    rw [htoken]
    decide +kernel

/-- Behind the guard, a request without the token has nothing executed. -/
theorem plan_forged {t : Tables} {limiter : Limiter} {p : Pending} {input : Input}
    (hguarded : p.handler.Guarded) (h : Forged p.request p.snapshot form) :
    (plan prim t limiter p form input).statements = [] := by
  obtain ⟨handler, request, snapshot, entered, passed⟩ := p
  obtain ⟨hlogin, hsignup, hreset⟩ := hguarded
  cases handler with
  | login => exact absurd rfl hlogin
  | signup => exact absurd rfl hsignup
  | resetPassword => exact absurd rfl hreset
  | endpointDelete id post => exact forged_unread h post _
  | view => rfl
  | _ => exact requireCsrf_forged h _

end Guards

section Framing
variable {prim : Primitives} {request : Request} {now : Datetime} {t t' : Tables}

theorem loaded_framed {r : Except Exc (Option Snapshot)}
    (h : Loaded prim t request now t' r) : Framed prim request now t t' := by
  cases h with
  | anonymous nobody tables =>
    rw [tables]
    exact ⟨rfl, rfl, rfl, rfl, rfl, rfl, .left rfl⟩
  | expired nobody token found hash tables =>
    rw [tables]
    exact ⟨rfl, rfl, rfl, rfl, rfl, rfl, .deleted token found hash rfl⟩
  | @live _ id _ touch attached token found hash tables =>
    rw [tables]
    cases touch with
    | false => exact ⟨rfl, rfl, rfl, rfl, rfl, rfl, .left rfl⟩
    | true =>
      simp only [if_true, execute]
      cases (Statement.touchSession id now.unixMs).refusal t with
      | some why => exact ⟨rfl, rfl, rfl, rfl, rfl, rfl, .left rfl⟩
      | none => exact ⟨rfl, rfl, rfl, rfl, rfl, rfl, .touched token found hash rfl⟩

end Framing

/-! ## The steps of one request -/

section Steps
variable {prim : Primitives} {allowSignup : Bool} {i : Nat} {handler : Handler}
  {request : Request} {snapshot : Option Snapshot} {t : Tables}

/-- The tables are these, and the request, if it is not over, is this one. -/
structure Handling (i : Nat) (handler : Handler) (request : Request)
    (snapshot : Except Exc (Option Snapshot)) (t : Tables) (σ : State) : Prop where
  tables : σ.tables = t
  pending : ∀ p, σ.pending i = some p →
    p.handler = handler ∧ p.request = request ∧ snapshot = .ok p.snapshot

variable {loaded : Except Exc (Option Snapshot)}

/-- A request that is over is handled, with the tables as they are. -/
theorem Handling.over {σ σ' : State} (h : Handling i handler request loaded t σ) (j : Nat)
    (htables : σ'.tables = σ.tables) (hpending : σ'.pending = Function.update σ.pending j none) :
    Handling i handler request loaded t σ' := by
  refine ⟨htables.trans h.tables, ?_⟩
  intro p hp
  rw [hpending] at hp
  by_cases hj : i = j
  · rw [hj, Function.update_self] at hp
    cases hp
  · rw [Function.update_of_ne hj] at hp
    exact h.pending p hp

theorem Handling.kept {σ : State} {a : Action} (h : Handling i handler request loaded t σ)
    (hguarded : handler.Guarded) (hof : a.Of i)
    (hforged : ∀ form input, a = .resume i form input → ∀ snapshot, loaded = .ok snapshot →
      Forged request snapshot form) :
    Handling i handler request loaded t (step prim allowSignup σ a) := by
  have hstep := step_stepped prim allowSignup σ a
  generalize step prim allowSignup σ a = σ' at hstep
  cases hstep with
  | arrived free loaded tables pending => exact hof.elim
  | minted tables pending => exact hof.elim
  | @entered j _ p _ was passed tables pending =>
    obtain rfl : j = i := hof
    refine ⟨tables.trans h.tables, ?_⟩
    intro q hq
    rw [pending, Function.update_self] at hq
    obtain rfl := Option.some.inj hq
    exact h.pending p was
  | @resumed j form input p _ was tables pending =>
    obtain rfl : j = i := hof
    obtain ⟨hhandler, hrequest, hsnapshot⟩ := h.pending p (State.suspended_eq_some.mp was).1
    have hnothing : (plan prim σ.tables σ.loginLimiter p form input).statements = [] := by
      apply plan_forged
      · rw [hhandler]
        exact hguarded
      · rw [hrequest]
        exact hforged form input rfl p.snapshot hsnapshot
    rw [hnothing] at tables
    exact h.over j tables pending
  | @dropped _ j _ tables pending => exact h.over j tables pending
  | stayed tables pending =>
    exact ⟨tables.trans h.tables, fun p hp => h.pending p (pending ▸ hp)⟩

theorem Handling.run {σ : State} {actions : List Action}
    (h : Handling i handler request loaded t σ) (hguarded : handler.Guarded)
    (hof : ∀ a ∈ actions, a.Of i)
    (hforged : ∀ form input, .resume i form input ∈ actions → ∀ snapshot,
      loaded = .ok snapshot → Forged request snapshot form) :
    Handling i handler request loaded t (actions.foldl (step prim allowSignup) σ) := by
  induction actions generalizing σ with
  | nil => exact h
  | cons a actions ih =>
    rw [List.forall_mem_cons] at hof
    rw [List.foldl_cons]
    apply ih
    · apply h.kept hguarded hof.1
      rintro form input rfl
      exact hforged form input List.mem_cons_self
    · exact hof.2
    · intro form input hmem
      exact hforged form input (List.mem_cons_of_mem a hmem)

/-- A request without the token of its session, from its arrival on and however it ends:
    of the tables, the middleware deletes or touches the session it presents. -/
theorem forged_framed {σ : State} {now : Datetime} {actions : List Action}
    (hfree : σ.pending i = none) (hguarded : handler.Guarded) (hof : ∀ a ∈ actions, a.Of i)
    (hforged : ∀ form input, .resume i form input ∈ actions → ∀ snapshot,
      (load prim σ.tables request now).2 = .ok snapshot → Forged request snapshot form) :
    Framed prim request now σ.tables
      ((.arrive i handler request now :: actions).foldl (step prim allowSignup) σ).tables := by
  have harrived : Handling i handler request (load prim σ.tables request now).2
      (load prim σ.tables request now).1
      (step prim allowSignup σ (.arrive i handler request now)) := by
    unfold step State.arrive
    simp only [hfree, Option.isSome_none, Bool.false_eq_true, if_false]
    refine ⟨rfl, ?_⟩
    intro p hp
    simp only [Function.update_self] at hp
    obtain ⟨snapshot, hsnapshot, rfl⟩ := Option.map_eq_some_iff.mp hp
    refine ⟨rfl, rfl, ?_⟩
    cases hloaded : (load prim σ.tables request now).2 with
    | error e =>
      rw [hloaded] at hsnapshot
      cases hsnapshot
    | ok snapshot' =>
      rw [hloaded] at hsnapshot
      rw [Option.some.inj hsnapshot]
  rw [List.foldl_cons, (harrived.run hguarded hof hforged).tables]
  exact loaded_framed (load_loaded prim σ.tables request now)

theorem forged_of_attached {r : Except Exc (Option Snapshot)} {form : Form}
    (h : r.toOption.all fun snapshot => snapshot.all fun s =>
      csrfPresented request form != s.session.csrfToken) :
    ∀ snapshot, r = .ok snapshot → Forged request snapshot form := by
  rintro snapshot rfl s rfl
  exact bne_iff_ne.mp h

end Steps

/-- Ann is signed in, and a page of somebody else's submits a route in her name. -/
theorem forged_framed_submission :
    let σ := (Action.whole 0 .signup (.withToken "") (.ofFields [("email", "ann@example.com"),
      ("password", "a long password"), ("password_confirm", "a long password")])
      (.drawing "s1")).foldl (step .plain true) { tables := {} }
    Framed .plain (.withToken "s1") .epoch σ.tables
      ((Action.whole 1 .endpointCreate (.withToken "s1") (.ofFields [("csrf_token", "guess"),
        ("path", "/hooks"), ("provider", "stripe"), ("upstream_url", "http://localhost"),
        ("secret_env", "SECRET")]) {}).foldl (step .plain true) σ).tables := by
  refine forged_framed rfl ⟨nofun, nofun, nofun⟩ ?_ ?_
  · intro a ha
    simp only [List.mem_cons, List.not_mem_nil, or_false] at ha
    rcases ha with rfl | rfl
    · exact rfl
    · exact rfl
  · intro form input hmem
    simp only [List.mem_cons, List.not_mem_nil, or_false, reduceCtorEq, false_or,
      Action.resume.injEq] at hmem
    obtain ⟨-, rfl, -⟩ := hmem
    exact forged_of_attached (by decide +kernel)

end console
end HookGuard
