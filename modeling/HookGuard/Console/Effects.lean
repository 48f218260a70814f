import HookGuard.Console.Accounts
import HookGuard.Console.Endpoints

/- Every route of the Console (`hookguard_console/app.py`), and what its handler can have
   executed.

   `Effect` is the inversion: the statements of a handler's plan are one of its lists, with
   what the handler checked before them (`plan_effect`). -/
namespace HookGuard
open Py store auth

namespace console

/-- The handlers behind the routes; `view` is those that write nothing: the pages, the
    export, the live tail, and the ingest route, which enqueues. -/
inductive Handler where
  | login
  | signup
  | logout
  | resetPassword
  | passwordChange
  | sessionRevoke (target : Nat)
  | sessionRevokeOthers
  | retentionChange
  | userCreate
  | userDeactivate (target : Nat)
  | endpointCreate
  | endpointUpdate (endpointId : Nat)
  | endpointDelete (endpointId : Nat) (post : Bool)
  | endpointToggleActive (endpointId : Nat)
  | view
  deriving DecidableEq

namespace Handler

/-- The handlers that act for the session of the request. -/
def authenticated : Handler → Bool
  | login | signup | resetPassword | view => false
  | _ => true

/-- The guard before the form is awaited: the answer of a request it does not let through. -/
def guard (handler : Handler) (request : Request) (snapshot : Option Snapshot) :
    Option Answer :=
  match handler with
  | login | signup | resetPassword | logout | view => none
  | userCreate | userDeactivate _ => requireAdmin request snapshot
  | _ => requireAuth request snapshot

end Handler

/-- A request between its arrival and its answer: before the handler was entered, or
    suspended at the form. -/
structure Pending where
  handler : Handler
  request : Request
  snapshot : Option Snapshot
  entered : Bool
  passed : entered = true → handler.guard request snapshot = none

/-- What the handler of a request does after the form. -/
def plan (prim : Primitives) (t : Tables) (limiter : Limiter) (p : Pending) (form : Form)
    (input : Input) : Plan :=
  match p.handler with
  | .login => handleLogin prim t p.request form input limiter
  | .signup => handleSignup prim t p.request form input
  | .logout => handleLogout p.request p.snapshot form input
  | .resetPassword => handleResetPassword prim t p.request form input
  | .passwordChange => handlePasswordChange prim p.request p.snapshot form input
  | .sessionRevoke target => handleSessionRevoke t p.request p.snapshot form input target
  | .sessionRevokeOthers => handleSessionRevokeOthers p.request p.snapshot form input
  | .retentionChange => handleRetentionChange p.request p.snapshot form
  | .userCreate => handleUserCreate prim t p.request p.snapshot form input
  | .userDeactivate target => handleUserDeactivate t p.request p.snapshot form target
  | .endpointCreate => handleEndpointCreate prim p.request p.snapshot form input
  | .endpointUpdate id => handleEndpointUpdate prim t p.request p.snapshot form input id
  | .endpointDelete id post => handleEndpointDelete p.request p.snapshot form id post
  | .endpointToggleActive id =>
    handleEndpointToggleActive t p.request p.snapshot form input id
  | .view => .stop (.page "" 200 [])

/-! ## What a plan has executed -/

/-- A statement of the routes page, or of the retention setting. -/
def Configures : Statement → Prop
  | .setSetting .. | .createEndpoint _ | .updateEndpoint .. | .setEndpointActive ..
  | .deleteEndpoint _ => True
  | _ => False

/-- A password change that is let through: the current password, and a new one. -/
structure ChangesPassword (prim : Primitives) (s : Snapshot) (form : Form) : Prop where
  verified : prim.verifyPassword (form.get (lit "current_password") []) s.user.passwordHash =
    .ok true
  confirmed : form.get (lit "new_password") [] = form.get (lit "new_password_confirm") []
  valid : validatePassword (form.get (lit "new_password") []) = none

/-- A reset that is let through: the user's token, and a new password. -/
structure ResetsPassword (prim : Primitives) (t : Tables) (form : Form) (input : Input)
    (uid : Int) : Prop where
  submitted : pyInt (form.get (lit "uid") []) = some uid
  consumed : consumeResetToken prim t input uid (form.get (lit "token") []) =
    .ok ([.deleteSetting (resetKey uid)], true)
  confirmed : form.get (lit "password") [] = form.get (lit "password_confirm") []
  valid : validatePassword (form.get (lit "password") []) = none

/-- The request has a session, and its form or header that session's CSRF token. -/
structure Authorized (request : Request) (snapshot : Option Snapshot) (form : Form)
    (s : Snapshot) : Prop where
  loaded : snapshot = some s
  csrf : checkRequestCsrf request s.session form = .ok true

/-- The statements a handler can have executed, with what it found before. -/
inductive Effect (prim : Primitives) (t : Tables) (request : Request)
    (snapshot : Option Snapshot) (form : Form) (input : Input) :
    Handler → List Statement → Prop
  | nothing {h : Handler} : Effect prim t request snapshot form input h []
  /-- A login that fails, or whose session cannot be started. -/
  | logged (e : AuthEvent) :
      Effect prim t request snapshot form input .login [.insertAuthEvent e]
  | login (e : AuthEvent) {id : Nat} {user : User} {session : Session}
      (found : t.users.get id = some user) (active : user.active = true)
      (started : startSession prim request id input = .ok (.createSession session)) :
      Effect prim t request snapshot form input .login
        [.insertAuthEvent e, .createSession session]
  /-- A signup whose session cannot be started. -/
  | signedUp (email passwordHash : Str) (createdAt : Int) (e : AuthEvent) :
      Effect prim t request snapshot form input .signup
        [.createUser email passwordHash
          (if t.users.rows.length = 0 then Role.admin else Role.member) createdAt,
          .insertAuthEvent e]
  | signup (email passwordHash : Str) (createdAt : Int) (e : AuthEvent) {session : Session}
      (started :
        startSession prim request t.users.nextId input = .ok (.createSession session)) :
      Effect prim t request snapshot form input .signup
        [.createUser email passwordHash
          (if t.users.rows.length = 0 then Role.admin else Role.member) createdAt,
          .insertAuthEvent e, .createSession session]
  | logout (s : Snapshot) (auth : Authorized request snapshot form s) (e : AuthEvent) :
      Effect prim t request snapshot form input .logout
        [.deleteSession s.sessionId, .insertAuthEvent e]
  /-- A reset that burns its token, and goes no further. -/
  | consumed (key : Str) :
      Effect prim t request snapshot form input .resetPassword [.deleteSetting key]
  | reset (uid : Int) (resets : ResetsPassword prim t form input uid) (passwordHash : Str)
      (e : AuthEvent) :
      Effect prim t request snapshot form input .resetPassword
        [.deleteSetting (resetKey uid), .updatePasswordHash uid passwordHash,
          .deleteSessionsForUserExcept uid 0, .insertAuthEvent e]
  | passwordChange (s : Snapshot) (auth : Authorized request snapshot form s)
      (changes : ChangesPassword prim s form) (passwordHash : Str) (e : AuthEvent) :
      Effect prim t request snapshot form input .passwordChange
        [.updatePasswordHash s.userId passwordHash,
          .deleteSessionsForUserExcept s.userId s.sessionId, .insertAuthEvent e]
  | sessionRevoke (s : Snapshot) (auth : Authorized request snapshot form s) {target : Nat}
      {row : Session} (found : t.sessions.get target = some row) (own : row.userId = s.userId)
      (e : AuthEvent) :
      Effect prim t request snapshot form input (.sessionRevoke target)
        [.deleteSession target, .insertAuthEvent e]
  | sessionRevokeOthers (s : Snapshot) (auth : Authorized request snapshot form s)
      (e : AuthEvent) :
      Effect prim t request snapshot form input .sessionRevokeOthers
        [.deleteSessionsForUserExcept s.userId s.sessionId, .insertAuthEvent e]
  | userCreate (s : Snapshot) (auth : Authorized request snapshot form s)
      (email passwordHash : Str) (role : Role) (createdAt : Int) (e : AuthEvent) :
      Effect prim t request snapshot form input .userCreate
        [.createUser email passwordHash role createdAt, .insertAuthEvent e]
  | userDeactivate (s : Snapshot) (auth : Authorized request snapshot form s) {target : Nat}
      {user : User} (found : t.users.get target = some user) (other : target ≠ s.userId) :
      Effect prim t request snapshot form input (.userDeactivate target)
        [.setUserActive target (!user.active)]
  /-- The retention setting, and the routes. -/
  | configured (s : Snapshot) (given : Form) (auth : Authorized request snapshot given s)
      {h : Handler} (st : Statement) (acts : h.authenticated = true)
      (configures : Configures st) :
      Effect prim t request snapshot form input h [st]

/-- What a plan has executed is an effect of the handler. -/
def Within (prim : Primitives) (t : Tables) (request : Request) (snapshot : Option Snapshot)
    (form : Form) (input : Input) (h : Handler) (p : Plan) : Prop :=
  Effect prim t request snapshot form input h p.statements

section Plans
variable {prim : Primitives} {t : Tables} {request : Request} {snapshot : Option Snapshot}
  {form : Form} {input : Input}

theorem requireCsrf_effect {h : Handler} {given : Form} {rest : Snapshot → Plan}
    (hrest : ∀ s, Authorized request snapshot given s →
      Within prim t request snapshot form input h (rest s)) :
    Within prim t request snapshot form input h (requireCsrf request snapshot given rest) :=
  requireCsrf_induction (fun _ => .nothing) fun s hs hcsrf => hrest s ⟨hs, hcsrf⟩

theorem lookUp_effect {h : Handler} {v : Value} {rest : Plan}
    (hrest : Within prim t request snapshot form input h rest) :
    Within prim t request snapshot form input h (Plan.lookUp v rest) :=
  Plan.lookUp_induction (fun _ => .nothing) hrest

theorem startSession_eq_ok {userId : Nat} {st : Statement}
    (h : startSession prim request userId input = .ok st) :
    ∃ session, st = .createSession session ∧ session.userId = userId := by
  unfold startSession at h
  split at h
  · cases h
  · split at h
    · cases h
    · exact ⟨_, (Except.ok.inj h).symm, rfl⟩

theorem withSession_effect {h : Handler} {userId : Nat} {statements : List Statement}
    {location : Str} (hnone : Effect prim t request snapshot form input h statements)
    (hsome : ∀ session, startSession prim request userId input = .ok (.createSession session) →
      Effect prim t request snapshot form input h (statements ++ [.createSession session])) :
    Effect prim t request snapshot form input h
      (withSession prim request userId input statements location).statements := by
  unfold withSession
  cases hst : startSession prim request userId input with
  | error e => exact hnone
  | ok st =>
    obtain ⟨session, rfl, -⟩ := startSession_eq_ok hst
    exact hsome session hst

theorem handleLogin_effect {limiter : Limiter} :
    Within prim t request snapshot form input .login
      (handleLogin prim t request form input limiter) := by
  unfold handleLogin loginTraced
  simp only
  split
  · exact .nothing
  · exact .nothing
  · unfold authenticate
    cases bindError _ with
    | some e => exact .nothing
    | none =>
      cases hfind : t.userByEmail _ with
      | none =>
        simp only
        split
        · exact .nothing
        · exact .logged _
      | some found =>
        obtain ⟨id, user⟩ := found
        simp only
        split
        · exact .logged _
        · next hactive =>
          split
          · exact .nothing
          · exact .logged _
          · have hget := (Sqlite.Table.find_eq_some hfind).1
            unfold loggedIn
            simp only
            split
            · exact .logged _
            · apply withSession_effect (.logged _)
              intro session hstart
              exact .login _ hget (eq_true_of_ne_false hactive) hstart

theorem handleSignup_effect :
    Within prim t request snapshot form input .signup
      (handleSignup prim t request form input) := by
  unfold handleSignup
  simp only
  split
  · exact .nothing
  · split
    · exact .nothing
    · apply lookUp_effect
      split
      · exact .nothing
      · split
        · exact .nothing
        · apply withSession_effect (.signedUp _ _ _ _)
          intro session hstart
          exact .signup _ _ _ _ hstart

theorem consumeResetToken_statements {uid : Int} {token : Str} {statements : List Statement}
    {valid : Bool} (h : consumeResetToken prim t input uid token = .ok (statements, valid)) :
    statements = [.deleteSetting (resetKey uid)] ∨ statements = [] ∧ valid = false := by
  unfold consumeResetToken at h
  split at h
  · exact .inr (by simp_all)
  · simp only at h
    split at h
    · split at h
      · exact .inl (by simp_all)
      · split at h
        · cases h
        · split at h
          · exact .inr (by simp_all)
          · exact .inl (by simp_all)
    · exact .inr (by simp_all)

theorem handleResetPassword_effect :
    Within prim t request snapshot form input .resetPassword
      (handleResetPassword prim t request form input) := by
  unfold handleResetPassword
  split
  · exact .nothing
  · next uid huid =>
    split
    · exact .nothing
    · next statements hconsume =>
      rcases consumeResetToken_statements hconsume with rfl | ⟨rfl, -⟩
      · exact .consumed _
      · exact .nothing
    · next statements hconsume =>
      rcases consumeResetToken_statements hconsume with rfl | ⟨-, hfalse⟩
      · unfold resetPassword
        simp only
        split
        · exact .consumed _
        · next hconfirmed =>
          split
          · exact .consumed _
          · next hvalid =>
            split
            · exact .consumed _
            · exact .reset uid ⟨huid, hconsume, not_not.mp hconfirmed, hvalid⟩ _ _
      · cases hfalse

theorem handlePasswordChange_effect :
    Within prim t request snapshot form input .passwordChange
      (handlePasswordChange prim request snapshot form input) := by
  apply requireCsrf_effect
  intro s hs
  simp only
  split
  · exact .nothing
  · exact .nothing
  · next hverified =>
    split
    · exact .nothing
    · next hconfirmed =>
      split
      · exact .nothing
      · next hvalid =>
        split
        · exact .nothing
        · exact .passwordChange s hs ⟨hverified, not_not.mp hconfirmed, hvalid⟩ _ _

theorem handleSessionRevoke_effect {target : Nat} :
    Within prim t request snapshot form input (.sessionRevoke target)
      (handleSessionRevoke t request snapshot form input target) := by
  apply requireCsrf_effect
  intro s hs
  cases hrow : t.sessions.get target with
  | none => exact .nothing
  | some row =>
    by_cases hown : row.userId = s.userId
    · simpa [hown] using .sessionRevoke s hs hrow hown _
    · simpa [hown] using .nothing

theorem handleRetentionChange_effect :
    Within prim t request snapshot form input .retentionChange
      (handleRetentionChange request snapshot form) := by
  apply requireCsrf_effect
  intro s hs
  split
  · exact .nothing
  · split
    · exact .nothing
    · exact .configured s _ hs _ rfl trivial

theorem handleUserCreate_effect :
    Within prim t request snapshot form input .userCreate
      (handleUserCreate prim t request snapshot form input) := by
  apply requireCsrf_effect
  intro s hs
  simp only
  split
  · exact .nothing
  · split
    · exact .nothing
    · split
      · exact .nothing
      · split
        · exact .nothing
        · exact .userCreate s hs _ _ _ _ _

theorem handleUserDeactivate_effect {target : Nat} :
    Within prim t request snapshot form input (.userDeactivate target)
      (handleUserDeactivate t request snapshot form target) := by
  apply requireCsrf_effect
  intro s hs
  apply lookUp_effect
  split
  · exact .nothing
  · next user hget =>
    split
    · exact .nothing
    · next hother => exact .userDeactivate s hs hget hother

theorem handleEndpointCreate_effect :
    Within prim t request snapshot form input .endpointCreate
      (handleEndpointCreate prim request snapshot form input) := by
  apply requireCsrf_effect
  intro s hs
  split
  · exact .nothing
  · exact .nothing
  · exact .configured s _ hs _ rfl trivial

theorem handleEndpointUpdate_effect {id : Nat} :
    Within prim t request snapshot form input (.endpointUpdate id)
      (handleEndpointUpdate prim t request snapshot form input id) := by
  apply requireCsrf_effect
  intro s hs
  apply lookUp_effect
  split
  · exact .nothing
  · split
    · exact .nothing
    · exact .nothing
    · exact .configured s _ hs _ rfl trivial

theorem handleEndpointToggleActive_effect {id : Nat} :
    Within prim t request snapshot form input (.endpointToggleActive id)
      (handleEndpointToggleActive t request snapshot form input id) := by
  apply requireCsrf_effect
  intro s hs
  apply lookUp_effect
  split
  · exact .nothing
  · exact .configured s _ hs _ rfl trivial

end Plans

/-- What the handler of a request has executed after the form is one of its effects. -/
theorem plan_effect (prim : Primitives) (t : Tables) (limiter : Limiter) (p : Pending)
    (form : Form) (input : Input) :
    Effect prim t p.request p.snapshot form input p.handler
      (plan prim t limiter p form input).statements := by
  obtain ⟨handler, request, snapshot, -, -⟩ := p
  cases handler with
  | login => exact handleLogin_effect
  | signup => exact handleSignup_effect
  | logout => exact requireCsrf_effect fun s hs => .logout s hs _
  | resetPassword => exact handleResetPassword_effect
  | passwordChange => exact handlePasswordChange_effect
  | sessionRevoke target => exact handleSessionRevoke_effect
  | sessionRevokeOthers => exact requireCsrf_effect fun s hs => .sessionRevokeOthers s hs _
  | retentionChange => exact handleRetentionChange_effect
  | userCreate => exact handleUserCreate_effect
  | userDeactivate target => exact handleUserDeactivate_effect
  | endpointCreate => exact handleEndpointCreate_effect
  | endpointUpdate id => exact handleEndpointUpdate_effect
  | endpointDelete id post =>
    exact requireCsrf_effect fun s hs => .configured s _ hs _ rfl trivial
  | endpointToggleActive id => exact handleEndpointToggleActive_effect
  | view => exact .nothing

end console
end HookGuard
