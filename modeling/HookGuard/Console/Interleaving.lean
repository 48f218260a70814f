import Mathlib.Logic.Function.Basic
import HookGuard.Console.Effects

/- The Console's requests, interleaved.

   A request arrives, and the middleware loads its session; its handler is entered, which
   asks the guard; and what the handler does after the form runs without another await.
   Between these, any other request may do any of its steps, for as long as the client
   takes to send its form. `mint` is the operator's `reset-password`, and `prune` the
   limiters' share of the retention job. -/
namespace HookGuard
open Py store auth

namespace console

/-- The tables, the limiters, and the requests that are not answered yet, by number. -/
structure State where
  tables : Tables
  loginLimiter : Limiter := auth.loginLimiter
  signupLimiter : Limiter := auth.signupLimiter
  pending : Nat → Option Pending := fun _ => none

inductive Action where
  | arrive (i : Nat) (handler : Handler) (request : Request) (now : Datetime)
  | enter (i : Nat) (now : Datetime)
  | resume (i : Nat) (form : Form) (input : Input)
  | abandon (i : Nat)
  | mint (email token : Str) (now : Datetime)
  | prune (now : Datetime)

/-- `_reset_password` of the command line. -/
def mintReset (prim : Primitives) (t : Tables) (email token : Str) (now : Datetime) :
    List Statement :=
  match t.userByEmail (prim.lower (strip email)), hashToken prim token,
    now.add RESET_TOKEN_TTL with
  | some (id, _), .ok digest, some expiresAt =>
    [.setSetting (resetKey id) (hex digest ++ lit ":" ++ intStr expiresAt.unixMs)]
  | _, _, _ => []

section System
variable (prim : Primitives) (allowSignup : Bool)

namespace State

/-- A request is over. -/
def drop (σ : State) (i : Nat) : State := { σ with pending := Function.update σ.pending i none }

def arrive (σ : State) (i : Nat) (handler : Handler) (request : Request) (now : Datetime) :
    State :=
  let r := load prim σ.tables request now
  { σ with
    tables := r.1
    pending := Function.update σ.pending i
      (r.2.toOption.map fun snapshot => ⟨handler, request, snapshot, false, nofun⟩) }

/-- Whether a handler comes to the form: the signup page is closed, or asks its limiter. -/
def comesToForm (σ : State) (p : Pending) (now : Datetime) : Bool × Limiter :=
  if p.handler ≠ .signup then (true, σ.signupLimiter)
  else if allowSignup = false then (false, σ.signupLimiter)
  else
    match σ.signupLimiter.allow p.request.clientIp now with
    | .ok ((allowed, _), limiter) => (allowed, limiter)
    | .error _ => (false, σ.signupLimiter)

/-- A handler is entered: its guard answers, or it comes to the form. -/
def enter (σ : State) (i : Nat) (p : Pending) (now : Datetime) : State :=
  let r := σ.comesToForm allowSignup p now
  if h : r.1 = true ∧ p.handler.guard p.request p.snapshot = none then
    { σ with
      signupLimiter := r.2
      pending := Function.update σ.pending i
        (some { p with entered := true, passed := fun _ => h.2 }) }
  else { σ.drop i with signupLimiter := r.2 }

/-- A handler goes on with its form, to its answer. -/
def resume (σ : State) (i : Nat) (p : Pending) (form : Form) (input : Input) : State :=
  let pl := plan prim σ.tables σ.loginLimiter p form input
  { σ.drop i with
    tables := (execute pl.statements σ.tables).tables
    loginLimiter := pl.limiter.getD σ.loginLimiter }

/-- The request that goes on with its form under this number. -/
def suspended (σ : State) (i : Nat) : Option Pending := (σ.pending i).filter Pending.entered

end State

def step (σ : State) : Action → State
  | .arrive i handler request now =>
    if (σ.pending i).isSome then σ else σ.arrive prim i handler request now
  | .enter i now =>
    match σ.pending i with
    | some p => if p.entered then σ else σ.enter allowSignup i p now
    | none => σ
  | .resume i form input =>
    match σ.suspended i with
    | some p => σ.resume prim i p form input
    | none => σ
  | .abandon i => σ.drop i
  | .mint email token now =>
    { σ with tables := (execute (mintReset prim σ.tables email token now) σ.tables).tables }
  | .prune now =>
    { σ with
      loginLimiter := (σ.loginLimiter.prune now).toOption.getD σ.loginLimiter
      signupLimiter := (σ.signupLimiter.prune now).toOption.getD σ.signupLimiter }

/-! ## What a step can do -/

/-- What a step makes of the tables and of the requests that are not answered. -/
inductive Stepped (σ : State) : Action → State → Prop
  | arrived {i : Nat} {handler : Handler} {request : Request} {now : Datetime} {σ' : State}
      {t : Tables} {r : Except Exc (Option Snapshot)} (free : σ.pending i = none)
      (loaded : Loaded prim σ.tables request now t r) (tables : σ'.tables = t)
      (pending : σ'.pending = Function.update σ.pending i
        (r.toOption.map fun snapshot => ⟨handler, request, snapshot, false, nofun⟩)) :
      Stepped σ (.arrive i handler request now) σ'
  | entered {i : Nat} {now : Datetime} {p : Pending} {σ' : State} (was : σ.pending i = some p)
      (passed : p.handler.guard p.request p.snapshot = none) (tables : σ'.tables = σ.tables)
      (pending : σ'.pending = Function.update σ.pending i
        (some { p with entered := true, passed := fun _ => passed })) :
      Stepped σ (.enter i now) σ'
  | resumed {i : Nat} {form : Form} {input : Input} {p : Pending} {σ' : State}
      (was : σ.suspended i = some p)
      (tables : σ'.tables =
        (execute (plan prim σ.tables σ.loginLimiter p form input).statements σ.tables).tables)
      (pending : σ'.pending = Function.update σ.pending i none) :
      Stepped σ (.resume i form input) σ'
  | dropped {a : Action} {i : Nat} {σ' : State} (tables : σ'.tables = σ.tables)
      (pending : σ'.pending = Function.update σ.pending i none) : Stepped σ a σ'
  | minted {email token : Str} {now : Datetime} {σ' : State} (tables : σ'.tables =
        (execute (mintReset prim σ.tables email token now) σ.tables).tables)
      (pending : σ'.pending = σ.pending) : Stepped σ (.mint email token now) σ'
  | stayed {a : Action} {σ' : State} (tables : σ'.tables = σ.tables)
      (pending : σ'.pending = σ.pending) : Stepped σ a σ'

theorem step_stepped (σ : State) (a : Action) : Stepped prim σ a (step prim allowSignup σ a) := by
  cases a with
  | arrive i handler request now =>
    unfold step
    simp only
    split
    · exact .stayed rfl rfl
    · next hfree =>
      have hnone : σ.pending i = none := by simpa using hfree
      exact .arrived hnone (load_loaded prim σ.tables request now) rfl rfl
  | enter i now =>
    unfold step
    simp only
    split
    · next p hp =>
      split
      · exact .stayed rfl rfl
      · unfold State.enter
        simp only
        split
        · next h => exact .entered hp h.2 rfl rfl
        · exact .dropped (i := i) rfl rfl
    · exact .stayed rfl rfl
  | resume i form input =>
    unfold step
    simp only
    split
    · next p hp => exact .resumed hp rfl rfl
    · exact .stayed rfl rfl
  | abandon i => exact .dropped (i := i) rfl rfl
  | mint email token now => exact .minted rfl rfl
  | prune now => exact .stayed rfl rfl

end System

/-! ## What every step keeps -/

section Kept
variable {prim : Primitives}

theorem State.suspended_eq_some {σ : State} {i : Nat} {p : Pending} :
    σ.suspended i = some p ↔ σ.pending i = some p ∧ p.entered = true := by
  unfold suspended
  rw [Option.filter_eq_some_iff]

theorem Loaded.user_kept {t t' : Tables} {request : Request} {now : Datetime}
    {r : Except Exc (Option Snapshot)} (h : Loaded prim t request now t' r) {id : Nat}
    {user : User} (hget : t.users.get id = some user) : t'.users.get id = some user := by
  obtain ⟨sts, rfl, hsts⟩ := h.statements
  apply execute_user_kept hget
  intro st hst
  rcases hsts st hst with ⟨id, rfl⟩ | ⟨id, lastSeenAt, rfl⟩
  · exact fun h => h
  · exact fun h => h

theorem Effect.sets_active {t : Tables} {request : Request} {snapshot : Option Snapshot}
    {form : Form} {input : Input} {h : Handler} {sts : List Statement}
    (heff : Effect prim t request snapshot form input h sts) {id : Nat} {st : Statement}
    (hst : st ∈ sts) (hsets : st.SetsActive id) :
    h = .userDeactivate id ∧ ∃ s, Authorized request snapshot form s ∧ id ≠ s.userId := by
  cases heff with
  | userDeactivate s auth found other =>
    obtain rfl := List.mem_singleton.mp hst
    obtain rfl : id = _ := hsets
    exact ⟨rfl, s, auth, other⟩
  | configured s given auth st' acts configures =>
    obtain rfl := List.mem_singleton.mp hst
    cases st <;> first | exact hsets.elim | exact configures.elim
  | nothing => cases hst
  | _ =>
    simp only [List.mem_cons, List.not_mem_nil, or_false] at hst
    rcases hst with rfl | rfl | rfl | rfl
    all_goals exact hsets.elim

theorem mintReset_sets {t : Tables} {email token : Str} {now : Datetime} {st : Statement}
    (hst : st ∈ mintReset prim t email token now) : ∃ key value, st = .setSetting key value := by
  unfold mintReset at hst
  split at hst
  · exact ⟨_, _, List.mem_singleton.mp hst⟩
  · cases hst

/-- What is executed outside of the handlers: by the middleware, and for the operator. -/
def Serves : Statement → Prop
  | .deleteSession _ | .touchSession _ _ | .setSetting _ _ => True
  | _ => False

/-- A step has statements executed: those of a handler that goes on, or others. -/
theorem Stepped.statements {σ σ' : State} {a : Action} (h : Stepped prim σ a σ') :
    ∃ sts, σ'.tables = (execute sts σ.tables).tables ∧ ((∀ st ∈ sts, Serves st) ∨
      ∃ i form input p, a = .resume i form input ∧ σ.suspended i = some p ∧
        sts = (plan prim σ.tables σ.loginLimiter p form input).statements) := by
  cases h with
  | arrived free loaded tables =>
    obtain ⟨sts, hsts, hkinds⟩ := loaded.statements
    refine ⟨sts, tables.trans hsts, .inl ?_⟩
    intro st hst
    rcases hkinds st hst with ⟨id, rfl⟩ | ⟨id, lastSeenAt, rfl⟩
    · exact trivial
    · exact trivial
  | @resumed i form input p _ was tables =>
    exact ⟨_, tables, .inr ⟨i, form, input, p, rfl, was, rfl⟩⟩
  | minted tables =>
    refine ⟨_, tables, .inl ?_⟩
    intro st hst
    obtain ⟨key, value, rfl⟩ := mintReset_sets hst
    exact trivial
  | entered was passed tables => exact ⟨[], tables, .inl nofun⟩
  | dropped tables => exact ⟨[], tables, .inl nofun⟩
  | stayed tables => exact ⟨[], tables, .inl nofun⟩

/-- A user is not deleted, keeps its address and role, and is active as before unless
    another request goes on to change that. -/
theorem Stepped.user_persists {σ σ' : State} {a : Action} (h : Stepped prim σ a σ') {id : Nat}
    {user : User} (hget : σ.tables.users.get id = some user) :
    ∃ user', σ'.tables.users.get id = some user' ∧ user'.email = user.email ∧
      user'.role = user.role ∧
      ((∀ i form input p, a = .resume i form input → σ.suspended i = some p →
        ∀ st ∈ (plan prim σ.tables σ.loginLimiter p form input).statements,
          ¬ st.SetsActive id) → user'.active = user.active) := by
  obtain ⟨sts, htables, hsts⟩ := h.statements
  obtain ⟨user', hget', hemail, hrole, hactive⟩ := execute_user_persists sts hget
  rw [htables]
  refine ⟨user', hget', hemail, hrole, ?_⟩
  intro hnot
  apply hactive
  intro st hst
  rcases hsts with hserves | ⟨i, form, input, p, rfl, hp, rfl⟩
  · have hserve := hserves st hst
    cases st <;> first | exact fun h => h | exact hserve.elim
  · exact hnot i form input p rfl hp st hst

/-- A request that is not answered was so before the step, or has just arrived. -/
theorem Stepped.pending_origin {σ σ' : State} {a : Action} (h : Stepped prim σ a σ') {j : Nat}
    {q : Pending} (hq : σ'.pending j = some q) :
    (∃ q₀, σ.pending j = some q₀ ∧ q₀.handler = q.handler ∧ q₀.request = q.request ∧
      q₀.snapshot = q.snapshot) ∨
    ∃ now, a = .arrive j q.handler q.request now ∧ σ.pending j = none ∧
      Loaded prim σ.tables q.request now σ'.tables (.ok q.snapshot) := by
  -- where the step is of another request, nothing has changed
  have other : ∀ (i : Nat) (x : Option Pending), σ'.pending = Function.update σ.pending i x →
      j ≠ i → σ.pending j = some q := by
    intro i x pending hj
    rw [pending, Function.update_of_ne hj] at hq
    exact hq
  have own : ∀ (i : Nat) (x : Option Pending), σ'.pending = Function.update σ.pending i x →
      j = i → x = some q := by
    intro i x pending hj
    rw [pending, hj, Function.update_self] at hq
    exact hq
  cases h with
  | @arrived i handler request now _ t r free loaded tables pending =>
    by_cases hj : j = i
    · right
      have hx := own i _ pending hj
      subst hj
      obtain ⟨snapshot, hr, rfl⟩ := Option.map_eq_some_iff.mp hx
      cases r with
      | error e => cases hr
      | ok snapshot' =>
        obtain rfl := Option.some.inj hr
        rw [← tables] at loaded
        exact ⟨now, rfl, free, loaded⟩
    · exact .inl ⟨q, other i _ pending hj, rfl, rfl, rfl⟩
  | @entered i now p _ was passed tables pending =>
    by_cases hj : j = i
    · obtain rfl := Option.some.inj (own i _ pending hj)
      exact .inl ⟨p, hj ▸ was, rfl, rfl, rfl⟩
    · exact .inl ⟨q, other i _ pending hj, rfl, rfl, rfl⟩
  | @resumed i form input p _ was tables pending =>
    by_cases hj : j = i
    · cases own i _ pending hj
    · exact .inl ⟨q, other i _ pending hj, rfl, rfl, rfl⟩
  | @dropped a i _ tables pending =>
    by_cases hj : j = i
    · cases own i _ pending hj
    · exact .inl ⟨q, other i _ pending hj, rfl, rfl, rfl⟩
  | minted tables pending => exact .inl ⟨q, by rw [← pending, hq], rfl, rfl, rfl⟩
  | stayed tables pending => exact .inl ⟨q, by rw [← pending, hq], rfl, rfl, rfl⟩

theorem Stepped.pending_cases {σ σ' : State} {a : Action} (h : Stepped prim σ a σ') {j : Nat}
    {q : Pending} (hq : σ'.pending j = some q) :
    (∃ q₀, σ.pending j = some q₀ ∧ q₀.handler = q.handler ∧ q₀.snapshot = q.snapshot) ∨
    ∃ request now, a = .arrive j q.handler request now ∧ σ.pending j = none ∧
      Loaded prim σ.tables request now σ'.tables (.ok q.snapshot) := by
  rcases h.pending_origin hq with ⟨q₀, hq₀, hhandler, -, hsnapshot⟩ | ⟨now, ha, hnone, hl⟩
  · exact .inl ⟨q₀, hq₀, hhandler, hsnapshot⟩
  · exact .inr ⟨q.request, now, ha, hnone, hl⟩

theorem step_resume_pending {allowSignup : Bool} {σ : State} {i : Nat} {form : Form}
    {input : Input} {p : Pending} (hp : σ.suspended i = some p) :
    (step prim allowSignup σ (.resume i form input)).pending = Function.update σ.pending i none ∧
    (step prim allowSignup σ (.resume i form input)).tables =
      (execute (plan prim σ.tables σ.loginLimiter p form input).statements σ.tables).tables := by
  unfold step
  simp only [hp]
  exact ⟨rfl, rfl⟩

end Kept

/-! ## Runs written out -/

/-- A whole request: it arrives, comes to its form, and goes on. -/
def Action.whole (i : Nat) (handler : Handler) (request : Request) (form : Form)
    (input : Input) : List Action :=
  [.arrive i handler request .epoch, .enter i .epoch, .resume i form input]

/-- A request with a session's token, or none. -/
def Request.withToken (token : String) : Request :=
  ⟨lit "/", [], [(SESSION_COOKIE_NAME, lit token)], lit "127.0.0.1"⟩

/-- The token that is drawn, and with it the CSRF token. -/
def Input.drawing (token : String) : Input := { token := lit token, csrfToken := lit token }

def Form.ofFields (fields : List (String × String)) : Form :=
  fields.map fun field => (lit field.1, lit field.2)

/-- Ann's account, active or not. -/
def annTables (active : Bool) : Tables :=
  { users := Sqlite.Table.empty.insert
      ⟨lit "ann@example.com", lit "a long password", .member, active, 0⟩ }

end console
end HookGuard
