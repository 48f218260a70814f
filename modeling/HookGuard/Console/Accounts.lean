import HookGuard.Console.Requests
import HookGuard.Lib.Hex

/- The handlers of accounts and sessions (`hookguard_console/routes/auth.py` and
   `settings.py`): login, signup, logout, the password reset and its token, and the actions
   of the settings page. -/
namespace HookGuard
open Py store auth

namespace console

def GENERIC_AUTH_ERROR : Msg := msg "Invalid email or password."

/-- `_start_session`: the statement that creates the session. -/
def startSession (prim : Primitives) (request : Request) (userId : Nat) (input : Input) :
    Except Exc Statement :=
  match hashToken prim input.token with
  | .error e => .error e
  | .ok tokenHash =>
    match input.started.add SESSION_ABSOLUTE_TIMEOUT with
    | none => .error .overflowError
    | some expires => .ok (.createSession
      { tokenHash
        userId
        csrfToken := input.csrfToken
        createdAt := input.started.unixMs
        lastSeenAt := input.started.unixMs
        expiresAt := expires.unixMs
        ip := request.clientIp
        userAgent := (request.headers.get (lit "user-agent")).getD [] })

/-- The statements before a session is started, the session, and the answer with its
    cookie. -/
def withSession (prim : Primitives) (request : Request) (userId : Nat) (input : Input)
    (statements : List Statement) (location : Str) : Plan :=
  match startSession prim request userId input with
  | .error e => { statements, answer := .error e }
  | .ok session =>
    { statements := statements ++ [session]
      answer := .ok (.redirect location (.set input.token)) }

/-! ## Login, signup and logout -/

/-- Whose hash a password is verified against. -/
inductive Verified where
  | dummy
  | user (id : Nat)
  deriving DecidableEq

section Auth
variable (prim : Primitives) (t : Tables) (request : Request) (snapshot : Option Snapshot)
  (form : Form) (input : Input)

/-- The page of a login that is rejected. -/
def loginRejected (nextPath : Str) : Answer :=
  .page "login.html" 200 [("error", GENERIC_AUTH_ERROR), ("next", [.text nextPath])]

/-- What `handle_login` does once the password is right. The redirect is made before the
    session is started, and raises for a location that cannot be encoded. -/
def loggedIn (email : Str) (userId : Nat) (nextPath : Str) : Plan :=
  let recorded := [record request .loginOk email (some (userId : Int)) input]
  match locationHeader nextPath with
  | none => { statements := recorded, answer := .error .unicodeEncodeError }
  | some _ => withSession prim request userId input recorded nextPath

/-- The part of `handle_login` behind the limiter, and the hashes it verifies the password
    against, in turn. -/
def authenticate (email password nextPath : Str) : Plan × List Verified :=
  match bindError (.str email) with
  | some e => (.raise e, [])
  | none =>
    match t.userByEmail email with
    | none =>
      match prim.verifyPassword password prim.dummyHash with
      | .error e => (.raise e, [.dummy])
      | .ok _ =>
        ({ statements := [record request .loginFail email none input]
           answer := .ok (loginRejected nextPath) }, [.dummy])
    | some (id, user) =>
      let failed : Plan :=
        { statements := [record request .loginFail email (some id) input]
          answer := .ok (loginRejected nextPath) }
      if user.active = false then (failed, [])
      else
        match prim.verifyPassword password user.passwordHash with
        | .error e => (.raise e, [.user id])
        | .ok false => (failed, [.user id])
        | .ok true => (loggedIn prim request input email id nextPath, [.user id])

/-- `handle_login`, with the hashes. -/
def loginTraced (limiter : Limiter) : Plan × List Verified :=
  let email := normalizeEmail prim (form.get (lit "email") [])
  match limiter.allow (request.clientIp ++ lit "|" ++ email) input.limited with
  | .error e => (.raise e, [])
  | .ok ((false, retryAfter), limiter) =>
    ({ answer := .ok (tooManyRequests retryAfter), limiter := some limiter }, [])
  | .ok ((true, _), limiter) =>
    let r := authenticate prim t request input email (form.get (lit "password") [])
      (safeNext (form.get (lit "next") []))
    ({ r.1 with limiter := some limiter }, r.2)

/-- `handle_login`. -/
def handleLogin (limiter : Limiter) : Plan := (loginTraced prim t request form input limiter).1

/-- The page of a signup that is rejected. -/
def signupRejected (m : Msg) : Answer := .page "signup.html" 200 [("error", m)]

/-- The part of `handle_signup` after the form. -/
def handleSignup : Plan :=
  let email := normalizeEmail prim (form.get (lit "email") [])
  let password := form.get (lit "password") []
  if email = [] ∨ password ≠ form.get (lit "password_confirm") [] then
    .stop (signupRejected GENERIC_AUTH_ERROR)
  else
    match validatePassword password with
    | some m => .stop (signupRejected m)
    | none =>
      Plan.lookUp (.str email)
        (if (t.userByEmail email).isSome then .stop (signupRejected GENERIC_AUTH_ERROR)
        else
          match prim.hashPassword input.salt password with
          | .error _ => .stop (signupRejected GENERIC_AUTH_ERROR)
          | .ok passwordHash =>
            let role := if t.users.rows.length = 0 then Role.admin else Role.member
            { withSession prim request t.users.nextId input
                [.createUser email passwordHash role input.created.unixMs,
                  record request .userCreate email (some t.users.nextId) input]
                (lit "/dashboard") with
              -- `except Exception`
              caught := fun _ => some (signupRejected GENERIC_AUTH_ERROR) })

/-- `handle_logout`, after the form. -/
def handleLogout : Plan :=
  requireCsrf request snapshot form fun s =>
    { statements :=
        [.deleteSession s.sessionId,
          record request .logout s.user.email (some s.userId) input]
      answer := .ok (.redirect (lit "/") .delete) }

/-! ## Password reset -/

/-- `_reset_key`. -/
def resetKey (userId : Int) : Str := lit "pwreset:" ++ intStr userId

/-- `_consume_reset_token`: the token's deletion where it is made, and whether the token was
    the user's. -/
def consumeResetToken (userId : Int) (token : Str) : Except Exc (List Statement × Bool) :=
  match t.setting (resetKey userId) with
  | none => .ok ([], false)
  | some stored =>
    let (digestHex, expiresRaw) := partition 58 stored
    match fromhex digestHex, pyInt (expiresRaw.getD []) with
    | some storedDigest, some expiresAtMs =>
      if (expiresAtMs : ℚ) < nearestDouble (input.consumed.timestamp * 1000) then
        .ok ([.deleteSetting (resetKey userId)], false)
      else
        match hashToken prim token with
        | .error e => .error e
        | .ok digest =>
          if digest ≠ storedDigest then .ok ([], false)
          else .ok ([.deleteSetting (resetKey userId)], true)
    | _, _ => .ok ([], false)

/-- The page of a reset that is rejected. -/
def resetRejected (m : Msg) : Answer :=
  .page "reset_password.html" 400
    [("error", m), ("reset_token", [.text (form.get (lit "token") [])]),
      ("reset_uid", [.text (form.get (lit "uid") [])])]

/-- What `handle_reset_password` does once the token is consumed. -/
def resetPassword (userId : Int) (consumed : List Statement) : Plan :=
  let password := form.get (lit "password") []
  if password ≠ form.get (lit "password_confirm") [] then
    { statements := consumed, answer := .ok (resetRejected form (msg "Passwords do not match.")) }
  else
    match validatePassword password with
    | some m => { statements := consumed, answer := .ok (resetRejected form m) }
    | none =>
      match prim.hashPassword input.salt password with
      | .error e => { statements := consumed, answer := .error e }
      | .ok passwordHash =>
        { statements := consumed ++
            [.updatePasswordHash userId passwordHash,
              .deleteSessionsForUserExcept userId 0,
              record request .passwordChange [] (some userId) input]
          answer := .ok (.redirect (lit "/login") .keep) }

/-- `handle_reset_password`, after the form. -/
def handleResetPassword : Plan :=
  match pyInt (form.get (lit "uid") []) with
  | none => .stop (resetRejected form (msg "Invalid reset link."))
  | some userId =>
    match consumeResetToken prim t input userId (form.get (lit "token") []) with
    | .error e => .raise e
    | .ok (statements, false) =>
      { statements
        answer := .ok (resetRejected form (msg "This reset link is invalid or has expired.")) }
    | .ok (statements, true) => resetPassword prim request form input userId statements

end Auth

/-! ## Settings -/

/-- `_render`: the settings page, with a message. -/
def settingsPage (field : String) (m : Msg) : Answer := .page "settings.html" 200 [(field, m)]

def toSettings : Answer := .redirect (lit "/dashboard/settings") .keep

section Settings
variable (prim : Primitives) (t : Tables) (request : Request) (snapshot : Option Snapshot)
  (form : Form) (input : Input)

/-- `handle_password_change`, after the form. -/
def handlePasswordChange : Plan :=
  requireCsrf request snapshot form fun s =>
    let new := form.get (lit "new_password") []
    match prim.verifyPassword (form.get (lit "current_password") []) s.user.passwordHash with
    | .error e => .raise e
    | .ok false => .stop (settingsPage "password_error" (msg "Current password is incorrect."))
    | .ok true =>
      if new ≠ form.get (lit "new_password_confirm") [] then
        .stop (settingsPage "password_error" (msg "New passwords do not match."))
      else
        match validatePassword new with
        | some m => .stop (settingsPage "password_error" m)
        | none =>
          match prim.hashPassword input.salt new with
          | .error e => .raise e
          | .ok passwordHash =>
            { statements :=
                [.updatePasswordHash s.userId passwordHash,
                  .deleteSessionsForUserExcept s.userId s.sessionId,
                  record request .passwordChange s.user.email (some s.userId) input]
              answer := .ok (settingsPage "password_ok"
                (msg "Password changed. Other sessions were signed out.")) }

/-- `handle_session_revoke`, after the form. -/
def handleSessionRevoke (target : Nat) : Plan :=
  requireCsrf request snapshot form fun s =>
    -- only the user's own sessions
    if (t.sessions.get target).any fun row => row.userId == s.userId then
      { statements :=
          [.deleteSession target,
            record request .sessionRevoke s.user.email (some s.userId) input]
        answer := .ok toSettings }
    else .stop toSettings

/-- `handle_session_revoke_others`, after the form. -/
def handleSessionRevokeOthers : Plan :=
  requireCsrf request snapshot form fun s =>
    { statements :=
        [.deleteSessionsForUserExcept s.userId s.sessionId,
          record request .sessionRevoke s.user.email (some s.userId) input]
      answer := .ok toSettings }

/-- `handle_retention_change`, after the form. -/
def handleRetentionChange : Plan :=
  requireCsrf request snapshot form fun _ =>
    match pyInt (form.get (lit "retention_days") []) with
    | none =>
      .stop (settingsPage "retention_error" (msg "Retention must be a whole number of days."))
    | some days =>
      if days < 1 then
        .stop (settingsPage "retention_error" (msg "Retention must be at least one day."))
      else
        { statements := [.setSetting (lit "retention_days") (intStr days)]
          answer := .ok (.page "settings.html" 200 []) }

/-- The role a text names. -/
def Role.ofText (s : Str) : Option Role :=
  if s = lit "admin" then some .admin else if s = lit "member" then some .member else none

/-- `handle_user_create`, after the form. -/
def handleUserCreate : Plan :=
  requireCsrf request snapshot form fun _ =>
    let email := normalizeEmail prim (form.get (lit "email") [])
    let password := form.get (lit "password") []
    if email = [] then .stop (settingsPage "user_error" (msg "Email is required."))
    else
      match Role.ofText (form.get (lit "role") (lit "member")) with
      | none => .stop (settingsPage "user_error" (msg "Unknown role."))
      | some role =>
        match validatePassword password with
        | some m => .stop (settingsPage "user_error" m)
        | none =>
          match prim.hashPassword input.salt password with
          | .error e => .raise e
          | .ok passwordHash =>
            { statements :=
                [.createUser email passwordHash role input.created.unixMs,
                  record request .userCreate email (some t.users.nextId) input]
              answer := .ok toSettings
              -- `except sqlite3.IntegrityError`
              caught := fun
                | .integrity _ => some
                  (settingsPage "user_error" (msg "A user with that email already exists."))
                | .binding _ => none }

/-- `handle_user_deactivate`, after the form. -/
def handleUserDeactivate (targetId : Nat) : Plan :=
  requireCsrf request snapshot form fun s =>
    Plan.lookUp (.int targetId)
      (match t.users.get targetId with
      | none => .stop toSettings
      | some target =>
        if targetId = s.userId then
          .stop (settingsPage "user_error" (msg "You cannot deactivate your own account."))
        else
          { statements := [.setUserActive targetId (!target.active)]
            answer := .ok toSettings })

end Settings

end console
end HookGuard
