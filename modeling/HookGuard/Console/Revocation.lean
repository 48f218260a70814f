import HookGuard.Console.Interleaving
import HookGuard.Lib.Runs

/- Whether a revoked session can still write (`middleware.py`, `routes/auth.py`,
   `routes/settings.py`).

   A handler acts on what the middleware attached when the request arrived, and does not
   look at it again when the form has come. `Watched` keeps, for each request that is not
   answered, whether the row of its session was deleted since by another request. A
   password change that was suspended over a reset sets the password after it
   (`revoked_writes`). Where no request revokes under another (`Waits`), every write is on
   behalf of a session that is there and of an active user (`writes_timely`). -/
namespace HookGuard
open Py store auth Runs

namespace console

/-- The row of the session is there. -/
def Snapshot.current (s : Snapshot) (t : Tables) : Bool :=
  (t.sessions.get s.sessionId).any fun row =>
    row.tokenHash == s.session.tokenHash && row.userId == s.userId

/-- The Console, and the requests whose session a handler has deleted since it was loaded. -/
structure Watched where
  state : State
  revoked : Nat → Bool := fun _ => false

section Watch
variable (prim : Primitives) (allowSignup : Bool)

def Watched.step (w : Watched) (a : Action) : Watched where
  state := console.step prim allowSignup w.state a
  revoked :=
    match a with
    | .arrive i _ _ _ => if (w.state.pending i).isSome then w.revoked else
        Function.update w.revoked i false
    | .resume _ _ _ => fun j => w.revoked j ||
        ((w.state.pending j).bind Pending.snapshot).any fun s =>
          s.current w.state.tables && !s.current (console.step prim allowSignup w.state a).tables
    | _ => w.revoked

/-- What a handler writes for a session, it writes while the session is not revoked and its
    user is active. -/
def Timely (w : Watched) : Action → Prop
  | .resume i form input => ∀ p s, w.state.suspended i = some p → p.handler.authenticated = true →
      p.snapshot = some s →
      (execute (plan prim w.state.tables w.state.loginLimiter p form input).statements
        w.state.tables).executed ≠ [] →
      w.revoked i = false ∧
        ∃ user, w.state.tables.users.get s.userId = some user ∧ user.active = true
  | _ => True

end Watch

/-- The request is one that revokes the session, or deactivates its user. -/
def Revokes (prim : Primitives) (t : Tables) (p : Pending) (form : Form) (input : Input)
    (s : Snapshot) : Prop :=
  match p.handler with
  | .logout => ∃ s', Authorized p.request p.snapshot form s' ∧ s.sessionId = s'.sessionId
  | .sessionRevoke target => s.sessionId = target ∧ ∃ s' row,
      Authorized p.request p.snapshot form s' ∧ t.sessions.get target = some row ∧
        row.userId = s'.userId
  | .sessionRevokeOthers => ∃ s', Authorized p.request p.snapshot form s' ∧
      s.userId = s'.userId ∧ s.sessionId ≠ s'.sessionId
  | .passwordChange => ∃ s', Authorized p.request p.snapshot form s' ∧
      ChangesPassword prim s' form ∧ s.userId = s'.userId ∧ s.sessionId ≠ s'.sessionId
  | .resetPassword => ResetsPassword prim t form input s.userId
  | .userDeactivate target => s.userId = target ∧
      ∃ s', Authorized p.request p.snapshot form s' ∧ target ≠ s'.userId
  | _ => False

/-- A request that revokes a session, or deactivates a user, goes on with its form only when
    no other request that acts for that session, or for that user, is under way. -/
def Waits (prim : Primitives) (w : Watched) : Action → Prop
  | .resume i form input => ∀ p, w.state.suspended i = some p → ∀ j q s, j ≠ i →
      w.state.pending j = some q → q.handler.authenticated = true → q.snapshot = some s →
      ¬ Revokes prim w.state.tables p form input s
  | _ => True

/-- The sessions that requests act for are not revoked, and their users are active. -/
def Live (w : Watched) : Prop :=
  ∀ j q s, w.state.pending j = some q → q.handler.authenticated = true → q.snapshot = some s →
    w.revoked j = false ∧
      ∃ user, w.state.tables.users.get s.userId = some user ∧ user.active = true

section Waiting
variable {prim : Primitives} {allowSignup : Bool}

theorem Effect.writes_session {t : Tables} {p : Pending} {form : Form} {input : Input}
    {sts : List Statement} (h : Effect prim t p.request p.snapshot form input p.handler sts)
    {s : Snapshot} {row : Session} (hrow : row.userId = s.userId)
    (hnot : ¬ Revokes prim t p form input s) {st : Statement} (hst : st ∈ sts) :
    ¬ st.WritesSession s.sessionId row := by
  unfold Revokes at hnot
  generalize p.handler = handler at h hnot
  cases h with
  | nothing => cases hst
  | configured s' given auth st' acts configures =>
    obtain rfl := List.mem_singleton.mp hst
    cases st <;> first | exact fun h => h | exact configures.elim
  | logout s' auth e =>
    simp only [List.mem_cons, List.not_mem_nil, or_false] at hst
    rcases hst with rfl | rfl
    · intro hid
      exact hnot ⟨s', auth, hid⟩
    · exact fun h => h
  | reset uid resets passwordHash e =>
    simp only [List.mem_cons, List.not_mem_nil, or_false] at hst
    rcases hst with rfl | rfl | rfl | rfl
    · exact fun h => h
    · exact fun h => h
    · rintro ⟨huid, -⟩
      rw [hrow] at huid
      exact hnot (huid ▸ resets)
    · exact fun h => h
  | passwordChange s' auth changes passwordHash e =>
    simp only [List.mem_cons, List.not_mem_nil, or_false] at hst
    rcases hst with rfl | rfl | rfl
    · exact fun h => h
    · rintro ⟨huid, hid⟩
      rw [hrow] at huid
      exact hnot ⟨s', auth, changes, Nat.cast_injective huid, hid⟩
    · exact fun h => h
  | sessionRevokeOthers s' auth e =>
    simp only [List.mem_cons, List.not_mem_nil, or_false] at hst
    rcases hst with rfl | rfl
    · rintro ⟨huid, hid⟩
      rw [hrow] at huid
      exact hnot ⟨s', auth, Nat.cast_injective huid, hid⟩
    · exact fun h => h
  | @sessionRevoke s' auth target row' found own e =>
    simp only [List.mem_cons, List.not_mem_nil, or_false] at hst
    rcases hst with rfl | rfl
    · intro hid
      exact hnot ⟨hid, s', row', auth, found, own⟩
    · exact fun h => h
  | _ =>
    simp only [List.mem_cons, List.not_mem_nil, or_false] at hst
    rcases hst with rfl | rfl | rfl
    all_goals exact fun h => h

/-- A session that a request does not revoke is there after it. -/
theorem current_kept {t : Tables} {limiter : Limiter} {p : Pending} {form : Form} {input : Input}
    {s : Snapshot} (hnot : ¬ Revokes prim t p form input s) (hcur : s.current t = true) :
    s.current (execute (plan prim t limiter p form input).statements t).tables = true := by
  unfold Snapshot.current at hcur ⊢
  rw [Option.any_eq_true] at hcur ⊢
  obtain ⟨row, hget, hrow⟩ := hcur
  refine ⟨row, ?_, hrow⟩
  apply execute_session_kept hget
  intro st hst
  rw [Bool.and_eq_true, beq_iff_eq, beq_iff_eq] at hrow
  exact (plan_effect _ _ _ _ _ _).writes_session hrow.2 hnot hst

/-- What a request waits for, it does not take from the others. -/
theorem live_step {w : Watched} {a : Action} (h : Live w) (hwaits : Waits prim w a) :
    Live (w.step prim allowSignup a) := by
  intro j q s hq hauth hs
  have hstep := step_stepped prim allowSignup w.state a
  rcases hstep.pending_cases hq with ⟨q₀, hq₀, hhandler, hsnapshot⟩ | ⟨request, now, rfl, hfree, hl⟩
  · -- the request was under way before the step
    rw [← hhandler] at hauth
    rw [← hsnapshot] at hs
    obtain ⟨hrevoked, user, huser, hactive⟩ := h j q₀ s hq₀ hauth hs
    have hother : ∀ i form input p, a = .resume i form input → w.state.suspended i = some p →
        ¬ Revokes prim w.state.tables p form input s := by
      rintro i form input p rfl hp
      apply hwaits p hp j q₀ s ?_ hq₀ hauth hs
      rintro rfl
      have hover : (step prim allowSignup w.state (.resume j form input)).pending j = some q := hq
      rw [(step_resume_pending hp).1, Function.update_self] at hover
      cases hover
    refine ⟨?_, ?_⟩
    · cases a with
      | arrive i handler request now =>
        show (if (w.state.pending i).isSome then w.revoked else _) j = false
        split
        · exact hrevoked
        · next hfree =>
          rw [Function.update_of_ne ?_]
          · exact hrevoked
          · rintro rfl
            rw [hq₀] at hfree
            exact hfree rfl
      | resume i form input =>
        show (w.revoked j || _) = false
        rw [hrevoked, Bool.false_or, hq₀]
        show (q₀.snapshot.any _) = false
        rw [hs]
        show (s.current w.state.tables && _) = false
        cases hcur : s.current w.state.tables with
        | false => rfl
        | true =>
          cases hp : w.state.suspended i with
          | none =>
            have hstay : (step prim allowSignup w.state (.resume i form input)) = w.state := by
              simp only [step, hp]
            rw [hstay, hcur]
            rfl
          | some p =>
            rw [(step_resume_pending hp).2, current_kept (hother i form input p rfl hp) hcur]
            rfl
      | _ => exact hrevoked
    · obtain ⟨user', huser', -, -, hactive'⟩ := hstep.user_persists huser
      refine ⟨user', huser', (hactive' ?_).trans hactive⟩
      intro i form input p heq hp st hst hsets
      have hnot := hother i form input p heq hp
      obtain ⟨hhandler, s', hauth', hne⟩ := (plan_effect _ _ _ _ _ _).sets_active hst hsets
      unfold Revokes at hnot
      rw [hhandler] at hnot
      exact hnot ⟨rfl, s', hauth', hne⟩
  · -- it has just arrived
    rw [hs] at hl
    obtain ⟨huser, hactive⟩ := hl.attached
    refine ⟨?_, s.user, ?_, hactive⟩
    · show (if (w.state.pending j).isSome then w.revoked else Function.update w.revoked j false) j
        = false
      rw [hfree]
      exact Function.update_self j false w.revoked
    · exact hl.user_kept huser

/-- In every run from a Console with no request under way, in which no request revokes
    under another, what a handler writes for a session it writes while the session is not
    revoked and its user is active. -/
theorem writes_timely (t : Tables) (actions : List Action)
    (waits : Along (Watched.step prim allowSignup) (Waits prim) ⟨{ tables := t }, fun _ => false⟩
      actions) :
    Along (Watched.step prim allowSignup) (Timely prim) ⟨{ tables := t }, fun _ => false⟩
      actions := by
  refine waits.of_invariant Live (fun _ _ => live_step) ?_ ?_
  · intro w a hlive _
    cases a with
    | resume i form input =>
      intro p s hp hauth hs _
      exact hlive i p s (State.suspended_eq_some.mp hp).1 hauth hs
    | _ => exact trivial
  · intro j q s hq
    cases hq

/-- A session that was revoked, and a write for it. -/
def Watched.writesRevoked (prim : Primitives) (w : Watched) (i : Nat) (form : Form)
    (input : Input) : Bool :=
  (w.state.suspended i).any fun p => p.handler.authenticated && p.snapshot.isSome &&
    w.revoked i && !(execute (plan prim w.state.tables w.state.loginLimiter p form
      input).statements w.state.tables).executed.isEmpty

theorem not_timely {w : Watched} {i : Nat} {form : Form} {input : Input}
    (h : w.writesRevoked prim i form input = true) : ¬ Timely prim w (.resume i form input) := by
  unfold Watched.writesRevoked at h
  rw [Option.any_eq_true] at h
  obtain ⟨p, hp, h⟩ := h
  simp only [Bool.and_eq_true, Bool.not_eq_true', List.isEmpty_eq_false_iff] at h
  obtain ⟨⟨⟨hauth, hsnapshot⟩, hrevoked⟩, hexecuted⟩ := h
  obtain ⟨s, hs⟩ := Option.isSome_iff_exists.mp hsnapshot
  intro htimely
  rw [(htimely p s hp hauth hs hexecuted).1] at hrevoked
  cases hrevoked

end Waiting

/-! ## A password change that is suspended over a reset -/

def signupForm : Form := .ofFields [("email", "ann@example.com"),
  ("password", "a long password"), ("password_confirm", "a long password")]

def changeForm : Form := .ofFields [("csrf_token", "s1"),
  ("current_password", "a long password"), ("new_password", "a stolen password"),
  ("new_password_confirm", "a stolen password")]

def resetForm : Form := .ofFields [("token", "r1"), ("uid", "1"),
  ("password", "a fresh password"), ("password_confirm", "a fresh password")]

/-- Of the numbers below `n`, the one that goes on with its form is the only one under way, or
    it is a logout, and the others act for other sessions. -/
def Watched.spares (n : Nat) (w : Watched) : Action → Bool
  | .arrive i _ _ _ => i < n
  | .resume i _ _ => (w.state.suspended i).all fun p => (List.range n).all fun j => j == i ||
      (w.state.pending j).all fun q => p.handler == .logout &&
        q.snapshot.all fun s => p.snapshot.all fun s' => s.sessionId != s'.sessionId
  | _ => true

theorem waits_spares {prim : Primitives} {allowSignup : Bool} {t : Tables} {actions : List Action}
    (n : Nat) (spares : Along (Watched.step prim allowSignup) (fun w a => w.spares n a = true)
      ⟨{ tables := t }, fun _ => false⟩ actions) :
    Along (Watched.step prim allowSignup) (Waits prim) ⟨{ tables := t }, fun _ => false⟩
      actions := by
  refine spares.of_invariant (fun w => ∀ j, n ≤ j → w.state.pending j = none) ?_ ?_
    (fun _ _ => rfl)
  · intro w a hnone hspares j hj
    cases hq : (w.step prim allowSignup a).state.pending j with
    | none => rfl
    | some q =>
      rcases (step_stepped prim allowSignup w.state a).pending_cases hq with
        ⟨q₀, hq₀, -⟩ | ⟨request, now, rfl, -⟩
      · rw [hnone j hj] at hq₀
        cases hq₀
      · have hlt : j < n := of_decide_eq_true hspares
        omega
  · intro w a hnone hspares
    cases a with
    | resume i form input =>
      intro p hp j q s hj hq _ hs hrevokes
      have hlt : j < n := by
        by_contra hge
        rw [hnone j (by omega)] at hq
        cases hq
      simp only [Watched.spares, hp, Option.all_some, List.all_eq_true, List.mem_range,
        Bool.or_eq_true, beq_iff_eq] at hspares
      have hother := (hspares j hlt).resolve_left hj
      simp only [hq, hs, Option.all_some, Bool.and_eq_true, beq_iff_eq] at hother
      obtain ⟨hlogout, hsessions⟩ := hother
      rw [Revokes, hlogout] at hrevokes
      obtain ⟨s', hauth, hid⟩ := hrevokes
      simp only [hauth.loaded, Option.all_some, bne_iff_ne] at hsessions
      exact hsessions hid
    | _ => exact trivial

/-- Ann's password change comes to its form in one session, and her logout in the other; the
    logout goes on, and then the change. -/
theorem writes_timely_two :
    let before := Action.whole 0 .signup (.withToken "") signupForm (.drawing "s1") ++
      Action.whole 0 .login (.withToken "") signupForm (.drawing "s2") ++
      [.arrive 1 .passwordChange (.withToken "s1") .epoch, .enter 1 .epoch,
        .arrive 2 .logout (.withToken "s2") .epoch, .enter 2 .epoch]
    let run := before ++ [.resume 2 (.ofFields [("csrf_token", "s2")]) {}, .resume 1 changeForm {}]
    Along (Watched.step .plain true) (Timely .plain) ⟨{ tables := {} }, fun _ => false⟩ run ∧
      ((before.foldl (step .plain true) { tables := {} }).suspended 1).isSome = true ∧
      ((before.foldl (step .plain true) { tables := {} }).suspended 2).isSome = true ∧
      ((run.foldl (step .plain true) { tables := {} }).tables.sessions.get 2).isNone = true ∧
      ((run.foldl (step .plain true) { tables := {} }).tables.users.get 1).map User.passwordHash =
        some (lit "a stolen password") := by
  refine ⟨?_, by decide +kernel, by decide +kernel, by decide +kernel, by decide +kernel⟩
  apply writes_timely
  apply waits_spares 3
  decide +kernel

/-- The change comes to its form with the old password; the reset runs through; and then
    the change goes on. -/
theorem revoked_writes :
    ¬ Along (Watched.step .plain true) (Timely .plain) ⟨{ tables := {} }, fun _ => false⟩
      (Action.whole 0 .signup (.withToken "") signupForm (.drawing "s1") ++
        [.arrive 1 .passwordChange (.withToken "s1") .epoch, .enter 1 .epoch,
          .mint (lit "ann@example.com") (lit "r1") .epoch] ++
        Action.whole 2 .resetPassword (.withToken "") resetForm {} ++
        [.resume 1 changeForm {}]) := by
  intro h
  obtain ⟨-, -, -, -, -, -, -, -, -, hlast, -⟩ := h
  exact not_timely (by decide +kernel) hlast

end console
end HookGuard
