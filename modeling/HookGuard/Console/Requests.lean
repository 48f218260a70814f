import HookGuard.Console.Auth
import HookGuard.Console.Tables
import HookGuard.Core.Http
import HookGuard.Lib.Quote

/- Requests to the Console: the session middleware (`hookguard_console/middleware.py`), the
   guards (`deps.py`), and what a handler is.

   A handler awaits the form of its request, and what it does after that it does without
   another await: it reads the tables, and has a list of statements executed. A `Plan` is
   those statements, with the answer after them. What a plan knows of the session and the
   user is the `Snapshot` the middleware took when the request arrived. -/
namespace HookGuard
open Py store auth

namespace console

/-- A request, as far as the handlers read it; the cookies as they are parsed. -/
structure Request where
  path : Str
  headers : Headers
  cookies : List (Str × Str)
  clientIp : Str

/-- The form of a request: the last of the fields of a name counts. -/
abbrev Form := List (Str × Str)

/-- `form.get(key, default)`. -/
def Form.get (form : Form) (key default : Str) : Str := (form.reverse.lookup key).getD default

/-- What an answer does to the session's cookie. -/
inductive Cookie where
  | keep
  | set (token : Str)
  | delete
  deriving DecidableEq

inductive Answer where
  | page (template : String) (statusCode : Nat) (context : List (String × Msg))
  | redirect (location : Str) (cookie : Cookie)
  | plain (statusCode : Nat) (content : String) (retryAfter : Option Int)
  deriving DecidableEq

/-- The `Location` header of a `RedirectResponse`; `none` is the `UnicodeEncodeError`. -/
def locationHeader (url : Str) : Option Str := quote url (lit ":/%#?=@[]!$&'()*+,")

/-! ## The session of a request -/

/-- What the middleware attaches to a request: the session its token is of, and the user,
    both as they were then. -/
structure Snapshot where
  sessionId : Nat
  session : Session
  user : User

def Snapshot.userId (s : Snapshot) : Nat := s.session.userId

/-- What the middleware makes of a session it found. -/
inductive Liveness where
  | expired
  | live (touch : Bool)
  deriving DecidableEq

/-- The two limits of a session, and whether it is to be touched. -/
def liveness (session : Session) (now : Datetime) : Except Exc Liveness :=
  match Datetime.fromUnixMs session.expiresAt, Datetime.fromUnixMs session.lastSeenAt with
  | some expiresAt, some lastSeen =>
    if expiresAt.us < now.us then .ok .expired
    else
      match lastSeen.add SESSION_IDLE_TIMEOUT with
      | none => .error .overflowError
      | some idle =>
        if idle.us < now.us then .ok .expired
        else .ok (.live (TOUCH_INTERVAL < now.us - lastSeen.us))
  | _, _ => .error (.valueError (msg "year is out of range"))

/-- The user of a session, if active, with the session. -/
def attach (t : Tables) (sessionId : Nat) (session : Session) : Option Snapshot :=
  match t.users.get session.userId with
  | none => none
  | some user => if user.active then some ⟨sessionId, session, user⟩ else none

/-- The hash of the token a request presents, if it presents one. -/
def presented (prim : Primitives) (request : Request) : Except Exc (Option Bytes) :=
  match request.cookies.lookup SESSION_COOKIE_NAME with
  | none | some [] => .ok none
  | some token => (hashToken prim token).map some

/-- A session that was found is deleted, or touched, or left, and attached. -/
def refresh (t : Tables) (id : Nat) (session : Session) (now : Datetime) :
    Tables × Except Exc (Option Snapshot) :=
  match liveness session now with
  | .error e => (t, .error e)
  | .ok .expired => (execute [.deleteSession id] t).attaching none
  | .ok (.live touch) =>
    (execute (if touch then [.touchSession id now.unixMs] else []) t).attaching
      (attach t id session)

/-- `SessionMiddleware._load`: the tables after it, and the user and session it attaches. -/
def load (prim : Primitives) (t : Tables) (request : Request) (now : Datetime) :
    Tables × Except Exc (Option Snapshot) :=
  match presented prim request with
  | .error e => (t, .error e)
  | .ok none => (t, .ok none)
  | .ok (some tokenHash) =>
    match t.sessionByTokenHash tokenHash with
    | none => (t, .ok none)
    | some (id, session) => refresh t id session now

/-- What the middleware makes of the tables, and what it attaches. -/
inductive Loaded (prim : Primitives) (t : Tables) (request : Request) (now : Datetime)
    (t' : Tables) (r : Except Exc (Option Snapshot)) : Prop
  /-- Nobody is attached, and nothing is written. -/
  | anonymous (nobody : ∀ s, r ≠ .ok (some s)) (tables : t' = t)
  | expired {h : Bytes} {id : Nat} {session : Session} (nobody : ∀ s, r ≠ .ok (some s))
      (token : presented prim request = .ok (some h)) (found : t.sessions.get id = some session)
      (hash : session.tokenHash = h) (tables : t' = (execute [.deleteSession id] t).tables)
  | live {h : Bytes} {id : Nat} {session : Session} {touch : Bool}
      (attached : ∀ s, r = .ok (some s) → s.sessionId = id ∧ s.session = session ∧
        t.users.get s.userId = some s.user ∧ s.user.active = true)
      (token : presented prim request = .ok (some h)) (found : t.sessions.get id = some session)
      (hash : session.tokenHash = h) (tables : t' =
        (execute (if touch then [.touchSession id now.unixMs] else []) t).tables)

theorem attach_eq_some {t : Tables} {id : Nat} {session : Session} {s : Snapshot}
    (h : attach t id session = some s) :
    s.sessionId = id ∧ s.session = session ∧ t.users.get s.userId = some s.user ∧
      s.user.active = true := by
  unfold attach at h
  split at h
  · cases h
  · next user huser =>
    split at h
    · next hactive =>
      obtain rfl := Option.some.inj h
      exact ⟨rfl, rfl, huser, hactive⟩
    · cases h

/-- What the middleware does is one of the three. -/
theorem load_loaded (prim : Primitives) (t : Tables) (request : Request) (now : Datetime) :
    Loaded prim t request now (load prim t request now).1 (load prim t request now).2 := by
  unfold load
  split
  · exact .anonymous nofun rfl
  · exact .anonymous nofun rfl
  · next h hpresented =>
    split
    · exact .anonymous nofun rfl
    · next id session hfind =>
      obtain ⟨hget, hhash⟩ := Sqlite.Table.find_eq_some hfind
      unfold refresh
      split
      · exact .anonymous nofun rfl
      · refine .expired ?_ hpresented hget (beq_iff_eq.mp hhash) (Executed.attaching_fst _ _)
        intro s hs
        cases Executed.attaching_eq_ok hs
      · refine .live ?_ hpresented hget (beq_iff_eq.mp hhash) (Executed.attaching_fst _ _)
        intro s hs
        exact attach_eq_some (Executed.attaching_eq_ok hs).symm

theorem Loaded.statements {prim : Primitives} {t t' : Tables} {request : Request}
    {now : Datetime} {r : Except Exc (Option Snapshot)} (h : Loaded prim t request now t' r) :
    ∃ sts, t' = (execute sts t).tables ∧ ∀ st ∈ sts,
      (∃ id, st = .deleteSession id) ∨ ∃ id lastSeenAt, st = .touchSession id lastSeenAt := by
  cases h with
  | anonymous nobody tables => exact ⟨[], tables, nofun⟩
  | @expired _ id _ nobody token found hash tables =>
    refine ⟨_, tables, ?_⟩
    intro st hst
    exact .inl ⟨id, List.mem_singleton.mp hst⟩
  | @live _ id _ touch attached token found hash tables =>
    refine ⟨_, tables, ?_⟩
    intro st hst
    cases touch with
    | false => cases hst
    | true => exact .inr ⟨id, _, List.mem_singleton.mp hst⟩

theorem Loaded.attached {prim : Primitives} {t t' : Tables} {request : Request} {now : Datetime}
    {s : Snapshot} (h : Loaded prim t request now t' (.ok (some s))) :
    t.users.get s.userId = some s.user ∧ s.user.active = true := by
  cases h with
  | anonymous nobody => exact absurd rfl (nobody s)
  | expired nobody => exact absurd rfl (nobody s)
  | live attached => exact (attached s rfl).2.2

/-! ## Plans -/

/-- The statements a handler has executed, and its answer after them: or what it raises,
    or answers where it catches that the first of them is refused. -/
structure Plan where
  statements : List Statement := []
  answer : Except Exc Answer
  caught : Refusal → Option Answer := fun _ => none
  /-- The login limiter, where it was asked. -/
  limiter : Option Limiter := none

namespace Plan

def stop (a : Answer) : Plan := { answer := .ok a }

def raise (e : Exc) : Plan := { answer := .error e }

/-- What binding the parameter of a query raises, or the rest. -/
def lookUp (v : Value) (rest : Plan) : Plan :=
  match bindError v with
  | some e => .raise e
  | none => rest

/-- What holds of the plans that only answer, and of the rest. -/
theorem lookUp_induction {P : Plan → Prop} {v : Value} {rest : Plan}
    (hanswer : ∀ answer, P { answer }) (hrest : P rest) : P (lookUp v rest) := by
  unfold lookUp
  split
  · exact hanswer _
  · exact hrest

/-- The answer, after the statements have been executed. -/
def answered (p : Plan) (r : Executed) : Except Exc Answer :=
  match r.refused with
  | none => p.answer
  | some why =>
    match r.executed, p.caught why with
    | [], some a => .ok a
    | _, _ => .error why.exc

end Plan

/-! ## Guards -/

/-- `check_request_csrf` of a request with a session. -/
def checkRequestCsrf (request : Request) (session : Session) (form : Form) : Except Exc Bool :=
  let header := (request.headers.get (lit "X-CSRF-Token")).getD []
  checkCsrf session.csrfToken (if header = [] then form.get CSRF_FORM_FIELD [] else header)

/-- `require_csrf`, and the rest of the handler. -/
def requireCsrf (request : Request) (snapshot : Option Snapshot) (form : Form)
    (rest : Snapshot → Plan) : Plan :=
  match snapshot with
  | none => .stop (.plain 403 "invalid or missing CSRF token" none)
  | some s =>
    match checkRequestCsrf request s.session form with
    | .error e => .raise e
    | .ok false => .stop (.plain 403 "invalid or missing CSRF token" none)
    | .ok true => rest s

/-- What holds of the plans that only answer, and of the rest under a session whose token
    is given. -/
theorem requireCsrf_induction {P : Plan → Prop} {request : Request} {snapshot : Option Snapshot}
    {form : Form} {rest : Snapshot → Plan} (hanswer : ∀ answer, P { answer })
    (hrest : ∀ s, snapshot = some s → checkRequestCsrf request s.session form = .ok true →
      P (rest s)) :
    P (requireCsrf request snapshot form rest) := by
  unfold requireCsrf
  split
  · exact hanswer _
  · split
    · exact hanswer _
    · exact hanswer _
    · next hcsrf => exact hrest _ rfl hcsrf

/-- `require_auth`: the answer of a request that is not let through. -/
def requireAuth (request : Request) (snapshot : Option Snapshot) : Option Answer :=
  match snapshot with
  | none => some (.redirect (lit "/login?next=" ++ request.path) .keep)
  | some _ => none

/-- `require_admin`. -/
def requireAdmin (request : Request) (snapshot : Option Snapshot) : Option Answer :=
  match requireAuth request snapshot with
  | some a => some a
  | none =>
    if (snapshot.map fun s => s.user.role) = some .admin then none
    else some (.page "403.html" 403 [("error", msg "Admins only.")])

theorem requireAdmin_eq_none {request : Request} {snapshot : Option Snapshot}
    (h : requireAdmin request snapshot = none) :
    ∃ s, snapshot = some s ∧ s.user.role = .admin := by
  cases snapshot with
  | none => cases h
  | some s =>
    refine ⟨s, rfl, ?_⟩
    by_contra hrole
    simp [requireAdmin, requireAuth, hrole] at h

/-- `too_many_requests`. -/
def tooManyRequests (retryAfter : Int) : Answer :=
  .plain 429 "Too many attempts. Try again later."
    (some (max 1 (truncate (nearestDouble (retryAfter / 10 ^ 6)))))

/-- What the rest of a handler reads of the clock, and draws at random. -/
structure Input where
  /-- When the limiter is asked. -/
  limited : Datetime := .epoch
  /-- When a reset token is looked at. -/
  consumed : Datetime := .epoch
  /-- When a row is created or updated. -/
  created : Datetime := .epoch
  /-- When the security log is written. -/
  logged : Datetime := .epoch
  /-- When a session is started. -/
  started : Datetime := .epoch
  salt : Bytes := []
  token : Str := []
  csrfToken : Str := []

/-- `_record`. -/
def record (request : Request) (kind : AuthEventKind) (email : Str) (userId : Option Int)
    (input : Input) : Statement :=
  .insertAuthEvent ⟨input.logged.unixMs, userId, email, kind, request.clientIp⟩

end console
end HookGuard
