import HookGuard.Console.Store
import HookGuard.Lib.Lowercase
import HookGuard.Lib.Table

/- The rest of the Console's database (`hookguard_console/store`): users, sessions,
   endpoints and the security log, and the statements the handlers write them with.

   A `Statement` is refused by what binding a parameter raises or by a constraint of the
   schema (`Statement.refusal`), and else changes the tables (`Statement.apply`).
   `execute` runs the statements of a handler in turn, up to the first that is refused;
   what each of them keeps, they keep together (`execute_induction`). -/
namespace HookGuard
open Py

namespace store

/-! ## The tables -/

inductive Role where
  | admin
  | member
  deriving DecidableEq

def Role.text : Role → Str
  | admin => lit "admin"
  | member => lit "member"

/-- `models.User`, under its id. -/
structure User where
  email : Str
  passwordHash : Str
  role : Role
  active : Bool
  createdAt : Int
  deriving DecidableEq

/-- `models.Session`, under its id. -/
structure Session where
  tokenHash : Bytes
  userId : Nat
  csrfToken : Str
  createdAt : Int
  lastSeenAt : Int
  expiresAt : Int
  ip : Str
  userAgent : Str
  deriving DecidableEq

/-- `models.Endpoint`, under its id. -/
structure Endpoint where
  path : Str
  provider : Str
  upstreamUrl : Str
  replayWindow : Str
  secretEnv : Str
  webhookId : Str
  active : Bool
  createdAt : Int
  updatedAt : Int
  deriving DecidableEq

inductive AuthEventKind where
  | loginOk
  | loginFail
  | logout
  | passwordChange
  | sessionRevoke
  | userCreate
  deriving DecidableEq

def AuthEventKind.text : AuthEventKind → Str
  | loginOk => lit "login_ok"
  | loginFail => lit "login_fail"
  | logout => lit "logout"
  | passwordChange => lit "pw_change"
  | sessionRevoke => lit "session_revoke"
  | userCreate => lit "user_create"

/-- `models.AuthEvent`, under its id. -/
structure AuthEvent where
  occurredAt : Int
  userId : Option Int
  email : Str
  kind : AuthEventKind
  ip : Str
  deriving DecidableEq

structure Tables extends Database where
  users : Sqlite.Table User := .empty
  sessions : Sqlite.Table Session := .empty
  endpoints : Sqlite.Table Endpoint := .empty
  authEvents : Sqlite.Table AuthEvent := .empty

/-- The octets of a code point in UTF-8. -/
def utf8Length (c : Nat) : Nat :=
  if c < 0x80 then 1 else if c < 0x800 then 2 else if c < 0x10000 then 3 else 4

/-- What the NOCASE collation compares for equality: the text up to a U+0000, but for the case
    of ASCII letters (`sqlite3StrNICmp`), and then the length in octets. -/
def nocaseKey (s : Str) : Str × Nat :=
  ((s.takeWhile (· ≠ 0)).map asciiLower, (s.map utf8Length).sum)

/-- Equality of the NOCASE collation. -/
def sameNocase (s t : Str) : Bool := nocaseKey s == nocaseKey t

theorem utf8Length_asciiLower (c : Nat) : utf8Length (asciiLower c) = utf8Length c := by
  unfold utf8Length asciiLower
  by_cases hcapital : 65 ≤ c ∧ c ≤ 90
  · rw [if_pos hcapital, if_pos (by omega), if_pos (by omega)]
  · rw [if_neg hcapital]

theorem eq_nil_of_length {s : Str} (h : (s.map utf8Length).sum = 0) : s = [] := by
  cases s with
  | nil => rfl
  | cons c s =>
    have hpos : 0 < utf8Length c := by
      unfold utf8Length
      grind
    rw [List.map_cons, List.sum_cons] at h
    omega

/-- A text without a U+0000 is the same only as a text that is it up to ASCII case. -/
theorem lower_eq_of_sameNocase {s t : Str} (hs : 0 ∉ s) (h : sameNocase s t = true) :
    s.map asciiLower = t.map asciiLower := by
  have hwhole : s.takeWhile (· ≠ 0) = s := by
    rw [List.takeWhile_eq_self_iff]
    intro c hc
    exact decide_eq_true (ne_of_mem_of_not_mem hc hs)
  unfold sameNocase nocaseKey at h
  rw [beq_iff_eq, Prod.mk.injEq, hwhole] at h
  obtain ⟨hhead, hlength⟩ := h
  have hfolded : ∀ x : Str, ((x.map asciiLower).map utf8Length).sum = (x.map utf8Length).sum := by
    intro x
    rw [List.map_map]
    exact congrArg List.sum (List.map_congr_left fun c _ => utf8Length_asciiLower c)
  have hsplit : t.takeWhile (· ≠ 0) ++ t.dropWhile (· ≠ 0) = t := List.takeWhile_append_dropWhile
  -- the part before the U+0000 is as long as the whole
  have hrest : t.dropWhile (· ≠ 0) = [] := by
    apply eq_nil_of_length
    have hsum := congrArg (fun x : Str => (x.map utf8Length).sum) hsplit
    simp only [List.map_append, List.sum_append] at hsum
    have hsame := hfolded (t.takeWhile (· ≠ 0))
    rw [← hhead, hfolded] at hsame
    omega
  rw [hrest, List.append_nil] at hsplit
  rw [hhead, hsplit]

/-- `get_user_by_email`. -/
def Tables.userByEmail (t : Tables) (email : Str) : Option (Nat × User) :=
  t.users.find fun u => sameNocase u.email email

/-- `get_session_by_token_hash`. -/
def Tables.sessionByTokenHash (t : Tables) (tokenHash : Bytes) : Option (Nat × Session) :=
  t.sessions.find fun s => s.tokenHash == tokenHash

/-- `get_setting`. -/
def Tables.setting (t : Tables) (key : Str) : Option Str := t.settings.get key

/-! ## The statements -/

inductive Statement where
  | createUser (email passwordHash : Str) (role : Role) (createdAt : Int)
  | updatePasswordHash (userId : Int) (passwordHash : Str)
  | setUserActive (userId : Nat) (active : Bool)
  | createSession (session : Session)
  | touchSession (sessionId : Nat) (lastSeenAt : Int)
  | deleteSession (sessionId : Nat)
  | deleteSessionsForUserExcept (userId : Int) (keepId : Nat)
  | insertAuthEvent (event : AuthEvent)
  | setSetting (key value : Str)
  | deleteSetting (key : Str)
  | createEndpoint (endpoint : Endpoint)
  | updateEndpoint (endpointId : Nat) (endpoint : Endpoint)
  | setEndpointActive (endpointId : Nat) (active : Bool) (updatedAt : Int)
  | deleteEndpoint (endpointId : Nat)

/-- Why a statement is refused: what binding raises, or an `sqlite3.IntegrityError`. -/
inductive Refusal where
  | binding (e : Exc)
  | integrity (m : Msg)
  deriving DecidableEq

def Refusal.exc : Refusal → Exc
  | binding e => e
  | integrity m => .sqliteError m

/-- What an endpoint is bound as, but for its flag. -/
def Endpoint.parameters (e : Endpoint) : List Value :=
  [.str e.path, .str e.provider, .str e.upstreamUrl, .str e.replayWindow, .str e.secretEnv,
   .str e.webhookId, .int e.createdAt, .int e.updatedAt]

/-- The checks of `endpoints`, of the provider and of the fields it goes with. -/
def Endpoint.check (e : Endpoint) : Option Refusal :=
  if e.provider ∉ [lit "stripe", lit "github", lit "shopify", lit "paypal"] then
    some (.integrity
      (msg "CHECK constraint failed: provider IN ('stripe','github','shopify','paypal')"))
  else if (e.provider = lit "paypal" ∧ e.webhookId ≠ [] ∧ e.secretEnv = []) ∨
      (e.provider ≠ lit "paypal" ∧ e.secretEnv ≠ [] ∧ e.webhookId = []) then none
  else some (.integrity (msg "CHECK constraint failed: (provider = 'paypal' AND webhook_id <> ''
      AND secret_env  = '')\n      OR (provider <> 'paypal' AND secret_env <> '' AND
      webhook_id = '')"))

namespace Statement

/-- The texts and numbers that are bound. The rest can be: the hash of a token, and an id
    that was read from its table, or was bound before. -/
def parameters : Statement → List Value
  | createUser email passwordHash role createdAt =>
    [.str email, .str passwordHash, .str role.text, .int createdAt]
  | updatePasswordHash userId passwordHash => [.str passwordHash, .int userId]
  | setUserActive _ _ => []
  | createSession s =>
    [.str s.csrfToken, .int s.createdAt, .int s.lastSeenAt, .int s.expiresAt, .str s.ip,
     .str s.userAgent]
  | touchSession _ lastSeenAt => [.int lastSeenAt]
  | deleteSession _ => []
  | deleteSessionsForUserExcept userId _ => [.int userId]
  | insertAuthEvent e =>
    [.int e.occurredAt, .str e.email, .str e.kind.text, .str e.ip]
  | setSetting key value => [.str key, .str value]
  | deleteSetting key => [.str key]
  | createEndpoint e => e.parameters
  | updateEndpoint _ e => e.parameters
  | setEndpointActive _ _ updatedAt => [.int updatedAt]
  | deleteEndpoint endpointId => [.int endpointId]

/-- The constraint of the schema that a statement violates, if any. -/
def violation (t : Tables) : Statement → Option Refusal
  | createUser email _ _ _ =>
    if (t.userByEmail email).isSome then
      some (.integrity (msg "UNIQUE constraint failed: users.email"))
    else none
  | createSession s =>
    if (t.sessionByTokenHash s.tokenHash).isSome then
      some (.integrity (msg "UNIQUE constraint failed: sessions.token_hash"))
    else if (t.users.get s.userId).isNone then
      some (.integrity (msg "FOREIGN KEY constraint failed"))
    else none
  | createEndpoint e =>
    match e.check with
    | some r => some r
    | none =>
      if (t.endpoints.find fun e' => e'.path == e.path).isSome then
        some (.integrity (msg "UNIQUE constraint failed: endpoints.path"))
      else none
  | updateEndpoint endpointId e =>
    if (t.endpoints.get endpointId).isNone then none
    else
      match e.check with
      | some r => some r
      | none =>
        if t.endpoints.rows.any fun r => r.1 != endpointId && r.2.path == e.path then
          some (.integrity (msg "UNIQUE constraint failed: endpoints.path"))
        else none
  | _ => none

def refusal (t : Tables) (st : Statement) : Option Refusal :=
  match st.parameters.findSome? bindError with
  | some e => some (.binding e)
  | none => st.violation t

def apply (t : Tables) : Statement → Tables
  | createUser email passwordHash role createdAt =>
    { t with users := t.users.insert ⟨email, passwordHash, role, true, createdAt⟩ }
  | updatePasswordHash userId passwordHash =>
    { t with
      users := t.users.update (fun id _ => (id : Int) == userId)
        (fun u => { u with passwordHash }) }
  | setUserActive userId active =>
    { t with
      users := t.users.update (fun id _ => id == userId)
        (fun u => { u with active }) }
  | createSession s => { t with sessions := t.sessions.insert s }
  | touchSession sessionId lastSeenAt =>
    { t with
      sessions := t.sessions.update (fun id _ => id == sessionId)
        (fun s => { s with lastSeenAt }) }
  | deleteSession sessionId =>
    { t with sessions := t.sessions.delete (fun id _ => id == sessionId) }
  | deleteSessionsForUserExcept userId keepId =>
    { t with
      sessions := t.sessions.delete
        (fun id s => (s.userId : Int) == userId && id != keepId) }
  | insertAuthEvent e => { t with authEvents := t.authEvents.insert e }
  | setSetting key value => { t with settings := t.settings.alter key (fun _ => value) }
  | deleteSetting key => { t with settings := t.settings.erase key }
  | createEndpoint e => { t with endpoints := t.endpoints.insert e }
  | updateEndpoint endpointId e =>
    { t with
      endpoints := t.endpoints.update (fun id _ => id == endpointId)
        (fun old => { e with active := old.active, createdAt := old.createdAt }) }
  | setEndpointActive endpointId active updatedAt =>
    { t with
      endpoints := t.endpoints.update (fun id _ => id == endpointId)
        (fun e => { e with active, updatedAt }) }
  | deleteEndpoint endpointId =>
    { t with endpoints := t.endpoints.delete (fun id _ => id == endpointId) }

/-! What a statement leaves as it was. -/

/-- The statement may change or delete a session's row. -/
def WritesSession (id : Nat) (row : Session) : Statement → Prop
  | touchSession sessionId _ => id = sessionId
  | deleteSession sessionId => id = sessionId
  | deleteSessionsForUserExcept userId keepId => (row.userId : Int) = userId ∧ id ≠ keepId
  | _ => False

/-- The statement may change a user's row. -/
def WritesUser (id : Nat) : Statement → Prop
  | updatePasswordHash userId _ => (id : Int) = userId
  | setUserActive userId _ => id = userId
  | _ => False

variable {t : Tables} {st : Statement} {id : Nat}

theorem session_kept {row : Session} (h : t.sessions.get id = some row)
    (hst : ¬ st.WritesSession id row) : (st.apply t).sessions.get id = some row := by
  cases st with
  | createSession s =>
    have hne : id ≠ t.sessions.nextId := by
      rintro rfl
      rw [Sqlite.Table.get_nextId] at h
      cases h
    simp only [apply, Sqlite.Table.get_insert, if_neg hne, h]
  | touchSession sessionId lastSeenAt =>
    simp only [WritesSession] at hst
    simp [apply, Sqlite.Table.get_update, h, hst]
  | deleteSession sessionId =>
    simp only [WritesSession] at hst
    simp [apply, Sqlite.Table.get_delete, h, hst]
  | deleteSessionsForUserExcept userId keepId =>
    simp only [WritesSession, not_and_or, not_not] at hst
    rcases hst with hst | rfl
    · simp [apply, Sqlite.Table.get_delete, h, hst]
    · simp [apply, Sqlite.Table.get_delete, h]
  | _ => exact h

theorem session_origin {row : Session} (h : (st.apply t).sessions.get id = some row) :
    st = .createSession row ∧ id = t.sessions.nextId ∨
      ∃ before, t.sessions.get id = some before ∧
      (row = before ∨
        ∃ lastSeenAt, st = .touchSession id lastSeenAt ∧ row = { before with lastSeenAt }) := by
  cases st with
  | createSession s =>
    simp only [apply, Sqlite.Table.get_insert] at h
    split at h
    · next hid => exact .inl ⟨congrArg _ (Option.some.inj h), hid⟩
    · exact .inr ⟨row, h, .inl rfl⟩
  | touchSession sessionId lastSeenAt =>
    simp only [apply, Sqlite.Table.get_update] at h
    obtain ⟨before, hbefore, hrow⟩ := Option.map_eq_some_iff.mp h
    refine .inr ⟨before, hbefore, ?_⟩
    split at hrow
    · next hid => exact .inr ⟨lastSeenAt, by rw [beq_iff_eq.mp hid], hrow.symm⟩
    · exact .inl hrow.symm
  | deleteSession sessionId =>
    simp only [apply, Sqlite.Table.get_delete] at h
    exact .inr ⟨row, (Option.filter_eq_some_iff.mp h).1, .inl rfl⟩
  | deleteSessionsForUserExcept userId keepId =>
    simp only [apply, Sqlite.Table.get_delete] at h
    exact .inr ⟨row, (Option.filter_eq_some_iff.mp h).1, .inl rfl⟩
  | _ => exact .inr ⟨row, h, .inl rfl⟩

theorem user_kept {user : User} (h : t.users.get id = some user) (hst : ¬ st.WritesUser id) :
    (st.apply t).users.get id = some user := by
  cases st with
  | createUser email passwordHash role createdAt =>
    have hne : id ≠ t.users.nextId := by
      rintro rfl
      rw [Sqlite.Table.get_nextId] at h
      cases h
    simp only [apply, Sqlite.Table.get_insert, if_neg hne, h]
  | updatePasswordHash userId passwordHash =>
    simp only [WritesUser] at hst
    simp [apply, Sqlite.Table.get_update, h, hst]
  | setUserActive userId active =>
    simp only [WritesUser] at hst
    simp [apply, Sqlite.Table.get_update, h, hst]
  | _ => exact h

/-- The statement sets whether the user is active. -/
def SetsActive (id : Nat) : Statement → Prop
  | setUserActive userId _ => id = userId
  | _ => False

/-- A user is not deleted, keeps the address and the role it was created with, and is
    active as before where that is not what the statement sets. -/
theorem user_persists (st : Statement) {user : User} (h : t.users.get id = some user) :
    ∃ user', (st.apply t).users.get id = some user' ∧ user'.email = user.email ∧
      user'.role = user.role ∧ (¬ st.SetsActive id → user'.active = user.active) := by
  by_cases hst : st.WritesUser id
  · cases st with
    | updatePasswordHash userId passwordHash =>
      exact ⟨{ user with passwordHash },
        by simp [apply, Sqlite.Table.get_update, h, show (id : Int) = userId from hst], rfl, rfl,
        fun _ => rfl⟩
    | setUserActive userId active =>
      obtain rfl : id = userId := hst
      exact ⟨{ user with active }, by simp [apply, Sqlite.Table.get_update, h], rfl, rfl,
        fun hnot => absurd rfl hnot⟩
    | _ => exact hst.elim
  · exact ⟨user, user_kept h hst, rfl, rfl, fun _ => rfl⟩

end Statement

/-- What became of statements: the tables, those that were executed, and why the one after
    them was refused, if it was. -/
structure Executed where
  tables : Tables
  executed : List Statement := []
  refused : Option Refusal := none

/-- What the statements raise. -/
def Executed.outcome (r : Executed) : Except Exc Unit :=
  match r.refused with
  | none => .ok ()
  | some why => .error why.exc

/-- The tables, and `a` where no statement was refused. -/
def Executed.attaching {α : Type} (r : Executed) (a : α) : Tables × Except Exc α :=
  (r.tables, r.outcome.map fun _ => a)

theorem Executed.attaching_fst {α : Type} (r : Executed) (a : α) :
    (r.attaching a).1 = r.tables := rfl

theorem Executed.attaching_eq_ok {α : Type} {r : Executed} {a b : α}
    (h : (r.attaching a).2 = .ok b) : b = a := by
  unfold attaching outcome at h
  simp only at h
  split at h
  · exact (Except.ok.inj h).symm
  · cases h

/-- Statements in turn, up to the first that is refused. -/
def execute : List Statement → Tables → Executed
  | [], t => { tables := t }
  | st :: sts, t =>
    match st.refusal t with
    | some r => { tables := t, refused := some r }
    | none =>
      let rest := execute sts (st.apply t)
      { rest with executed := st :: rest.executed }

/-- What each of the statements keeps, they keep together. -/
theorem execute_induction {P : Tables → Prop} {sts : List Statement}
    (hkeep : ∀ st ∈ sts, ∀ t, P t → st.refusal t = none → P (st.apply t)) {t : Tables} (h : P t) :
    P (execute sts t).tables := by
  induction sts generalizing t with
  | nil => exact h
  | cons st sts ih =>
    rw [List.forall_mem_cons] at hkeep
    rw [execute]
    cases hr : st.refusal t with
    | some r => exact h
    | none => exact ih hkeep.2 (hkeep.1 t h hr)

theorem execute_session_kept {sts : List Statement} {t : Tables} {id : Nat} {row : Session}
    (h : t.sessions.get id = some row) (hsts : ∀ st ∈ sts, ¬ st.WritesSession id row) :
    (execute sts t).tables.sessions.get id = some row :=
  execute_induction (P := fun t => t.sessions.get id = some row)
    (fun st hst _ h _ => Statement.session_kept h (hsts st hst)) h

theorem execute_user_kept {sts : List Statement} {t : Tables} {id : Nat} {user : User}
    (h : t.users.get id = some user) (hsts : ∀ st ∈ sts, ¬ st.WritesUser id) :
    (execute sts t).tables.users.get id = some user :=
  execute_induction (P := fun t => t.users.get id = some user)
    (fun st hst _ h _ => Statement.user_kept h (hsts st hst)) h

theorem execute_user_persists (sts : List Statement) {t : Tables} {id : Nat} {user : User}
    (h : t.users.get id = some user) :
    ∃ user', (execute sts t).tables.users.get id = some user' ∧ user'.email = user.email ∧
      user'.role = user.role ∧
      ((∀ st ∈ sts, ¬ st.SetsActive id) → user'.active = user.active) := by
  refine execute_induction (P := fun t => ∃ user', t.users.get id = some user' ∧
    user'.email = user.email ∧ user'.role = user.role ∧
    ((∀ st ∈ sts, ¬ st.SetsActive id) → user'.active = user.active))
    ?_ ⟨user, h, rfl, rfl, fun _ => rfl⟩
  rintro st hst t ⟨user', hget, hemail, hrole, hactive⟩ -
  obtain ⟨user'', hget', hemail', hrole', hactive'⟩ := Statement.user_persists st hget
  exact ⟨user'', hget', hemail'.trans hemail, hrole'.trans hrole,
    fun hall => (hactive' (hall st hst)).trans (hactive hall)⟩

/-- After statements that touch no session, a session's row is one that was there, or a new
    one of theirs. -/
theorem execute_session_origin {sts : List Statement} {t : Tables} {id : Nat} {row : Session}
    (hsts : ∀ st ∈ sts, ∀ lastSeenAt, st ≠ .touchSession id lastSeenAt)
    (h : (execute sts t).tables.sessions.get id = some row) :
    t.sessions.get id = some row ∨ .createSession row ∈ sts := by
  refine execute_induction (P := fun t' => ∀ row, t'.sessions.get id = some row →
    t.sessions.get id = some row ∨ .createSession row ∈ sts) ?_ (fun _ => .inl) row h
  intro st hst t' ih _ row hget
  rcases Statement.session_origin hget with ⟨rfl, -⟩ | ⟨before, hbefore, rfl | ⟨lastSeenAt, rfl, -⟩⟩
  · exact .inr hst
  · exact ih row hbefore
  · exact absurd rfl (hsts _ hst lastSeenAt)

theorem execute_deleteSession {id : Nat} {sts : List Statement} {t : Tables}
    (hsts : ∀ st ∈ sts, (∀ lastSeenAt, st ≠ .touchSession id lastSeenAt) ∧
      ∀ session, st ≠ .createSession session) :
    (execute (.deleteSession id :: sts) t).tables.sessions.get id = none := by
  rw [execute]
  show (execute sts ((Statement.deleteSession id).apply t)).tables.sessions.get id = none
  cases hget : (execute sts ((Statement.deleteSession id).apply t)).tables.sessions.get id with
  | none => rfl
  | some row =>
    rcases execute_session_origin (fun st hst => (hsts st hst).1) hget with h | h
    · simp [Statement.apply, Sqlite.Table.get_delete] at h
    · exact absurd rfl ((hsts _ h).2 row)

end store
end HookGuard
