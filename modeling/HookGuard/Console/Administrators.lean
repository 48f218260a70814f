import HookGuard.Console.Interleaving
import HookGuard.Lib.Runs

/- Whether an administrator is left (`routes/settings.py`, `routes/auth.py`).

   The first account is the administrator, roles are never changed, and nobody deactivates
   their own account. But who deactivates is looked up before the form is awaited: two
   administrators that were let through can deactivate each other
   (`administrators_deactivated`). Where whoever deactivates is still active when the form
   has come, an active administrator is left in every state (`administrator_left`). -/
namespace HookGuard
open Py store auth Runs

namespace console

/-- If there is a user, there is an active administrator. -/
def Administered (t : Tables) : Prop :=
  t.users.rows ≠ [] →
    ∃ id user, t.users.get id = some user ∧ user.role = .admin ∧ user.active = true

/-- Who goes on to deactivate a user is still active. -/
def Stands (σ : State) : Action → Prop
  | .resume i form _ => ∀ p target s, σ.suspended i = some p →
      p.handler = .userDeactivate target → Authorized p.request p.snapshot form s →
      ∃ user, σ.tables.users.get s.userId = some user ∧ user.active = true
  | _ => True

/-- The users that requests act for are there, in the role they had. -/
def Rooted (σ : State) : Prop :=
  ∀ j q s, σ.pending j = some q → q.snapshot = some s →
    ∃ user, σ.tables.users.get s.userId = some user ∧ user.role = s.user.role

section Administration
variable {prim : Primitives} {allowSignup : Bool}

theorem Administered.apply {t : Tables} {st : Statement} (h : Administered t)
    (hactive : ∀ id, ¬ st.SetsActive id) (hrole : ∀ email passwordHash role createdAt,
      st = .createUser email passwordHash role createdAt →
        t.users.rows ≠ [] ∨ role = .admin) : Administered (st.apply t) := by
  intro hrows
  by_cases hbefore : t.users.rows ≠ []
  · obtain ⟨id, user, hget, hadmin, hact⟩ := h hbefore
    obtain ⟨user', hget', -, hrole', hactive'⟩ := Statement.user_persists st hget
    exact ⟨id, user', hget', hrole'.trans hadmin, (hactive' (hactive id)).trans hact⟩
  · cases st with
    | createUser email passwordHash role createdAt =>
      have hadmin := (hrole _ _ _ _ rfl).resolve_left hbefore
      refine ⟨t.users.nextId, ⟨email, passwordHash, role, true, createdAt⟩, ?_, hadmin, rfl⟩
      simp only [Statement.apply, Sqlite.Table.get_insert, if_true]
    | updatePasswordHash userId passwordHash =>
      have hnil : t.users.rows = [] := not_not.mp hbefore
      exact absurd (by simp [Statement.apply, Sqlite.Table.update, hnil]) hrows
    | setUserActive userId active =>
      have hnil : t.users.rows = [] := not_not.mp hbefore
      exact absurd (by simp [Statement.apply, Sqlite.Table.update, hnil]) hrows
    | _ => exact absurd hrows hbefore

theorem Administered.execute {t : Tables} {sts : List Statement} (h : Administered t)
    (hactive : ∀ st ∈ sts, ∀ id, ¬ st.SetsActive id)
    (hrole : ∀ email passwordHash role createdAt,
      .createUser email passwordHash role createdAt ∈ sts →
        t.users.rows ≠ [] ∨ role = .admin) : Administered (execute sts t).tables := by
  -- a table that is not empty stays so
  refine (execute_induction (P := fun t' => Administered t' ∧
    (t.users.rows ≠ [] → t'.users.rows ≠ [])) ?_ ⟨h, fun h => h⟩).1
  rintro st hst t' ⟨h', hrows⟩ -
  refine ⟨h'.apply (hactive st hst) ?_, ?_⟩
  · rintro email passwordHash role createdAt rfl
    exact (hrole _ _ _ _ hst).imp_left hrows
  · intro hne
    rw [Sqlite.Table.rows_ne_nil]
    obtain ⟨id, user, hget⟩ := Sqlite.Table.rows_ne_nil.mp (hrows hne)
    obtain ⟨user', hget', -⟩ := Statement.user_persists st hget
    exact ⟨id, user', hget'⟩

/-- A user is created in a role of its request's choice by an administrator only. -/
theorem Effect.creates_user {t : Tables} {request : Request} {snapshot : Option Snapshot}
    {form : Form} {input : Input} {h : Handler} {sts : List Statement}
    (heff : Effect prim t request snapshot form input h sts) {email passwordHash : Str}
    {role : Role} {createdAt : Int}
    (hst : .createUser email passwordHash role createdAt ∈ sts) :
    role = (if t.users.rows.length = 0 then .admin else .member) ∨ ∃ s, snapshot = some s := by
  cases heff with
  | signedUp email passwordHash createdAt e =>
    simp only [List.mem_cons, List.not_mem_nil, or_false, reduceCtorEq] at hst
    exact .inl (Statement.createUser.inj hst).2.2.1
  | signup email passwordHash createdAt e started =>
    simp only [List.mem_cons, List.not_mem_nil, or_false, reduceCtorEq] at hst
    exact .inl (Statement.createUser.inj hst).2.2.1
  | userCreate s auth => exact .inr ⟨s, auth.loaded⟩
  | configured s given auth => exact .inr ⟨s, auth.loaded⟩
  | _ =>
    simp only [List.mem_cons, List.not_mem_nil, or_false, reduceCtorEq] at hst

/-- What a request has executed leaves an administrator. -/
theorem administered_resume {σ : State} {i : Nat} {p : Pending} {form : Form} {input : Input}
    (h : Administered σ.tables) (hrooted : Rooted σ)
    (hstands : Stands σ (.resume i form input)) (hp : σ.suspended i = some p) :
    Administered
      (execute (plan prim σ.tables σ.loginLimiter p form input).statements σ.tables).tables := by
  obtain ⟨hpending, hentered⟩ := State.suspended_eq_some.mp hp
  have heff := plan_effect prim σ.tables σ.loginLimiter p form input
  by_cases hsets : ∃ st ∈ (plan prim σ.tables σ.loginLimiter p form input).statements,
      ∃ id, st.SetsActive id
  · -- it deactivates another user than who asks for it, an active administrator
    obtain ⟨st, hst, id, hid⟩ := hsets
    obtain ⟨hhandler, s, hauth, hne⟩ := heff.sets_active hst hid
    have hguard := p.passed hentered
    rw [hhandler] at hguard
    obtain ⟨s', hs', hadmin⟩ := requireAdmin_eq_none hguard
    obtain rfl : s = s' := Option.some.inj (hauth.loaded.symm.trans hs')
    obtain ⟨user, hget, hrole⟩ := hrooted i p s hpending hauth.loaded
    obtain ⟨user', hget', hactive⟩ := hstands p id s hp hhandler hauth
    obtain rfl : user' = user := Option.some.inj (hget'.symm.trans hget)
    obtain ⟨after, hafter, -, hrole', hactive'⟩ := execute_user_persists
      (plan prim σ.tables σ.loginLimiter p form input).statements hget
    intro _
    refine ⟨s.userId, after, hafter, (hrole'.trans hrole).trans hadmin, ?_⟩
    refine (hactive' ?_).trans hactive
    intro st' hst' hid'
    obtain ⟨hhandler', -⟩ := heff.sets_active hst' hid'
    rw [hhandler, Handler.userDeactivate.injEq] at hhandler'
    exact hne hhandler'
  · apply h.execute
    · intro st hst id hid
      exact hsets ⟨st, hst, id, hid⟩
    · intro email passwordHash role createdAt hst
      rcases heff.creates_user hst with hrole | ⟨s, hs⟩
      · by_cases hrows : σ.tables.users.rows ≠ []
        · exact .inl hrows
        · right
          rw [hrole, not_not.mp hrows]
          rfl
      · obtain ⟨user, hget, -⟩ := hrooted i p s hpending hs
        exact .inl (Sqlite.Table.rows_ne_nil.mpr ⟨_, _, hget⟩)

theorem administered_step {σ : State} {a : Action} (h : Administered σ.tables)
    (hrooted : Rooted σ) (hstands : Stands σ a) :
    Administered (step prim allowSignup σ a).tables := by
  obtain ⟨sts, htables, hsts⟩ := (step_stepped prim allowSignup σ a).statements
  rw [htables]
  rcases hsts with hserves | ⟨i, form, input, p, rfl, hp, rfl⟩
  · apply h.execute
    · intro st hst id
      have hserve := hserves st hst
      cases st <;> first | exact fun h => h | exact hserve.elim
    · intro email passwordHash role createdAt hst
      exact (hserves _ hst).elim
  · exact administered_resume h hrooted hstands hp

theorem rooted_step {σ : State} {a : Action} (h : Rooted σ) :
    Rooted (step prim allowSignup σ a) := by
  intro j q s hq hs
  have hstep := step_stepped prim allowSignup σ a
  rcases hstep.pending_cases hq with ⟨q₀, hq₀, -, hsnapshot⟩ | ⟨request, now, -, -, hl⟩
  · obtain ⟨user, hget, hrole⟩ := h j q₀ s hq₀ (hsnapshot.trans hs)
    obtain ⟨user', hget', -, hrole', -⟩ := hstep.user_persists hget
    exact ⟨user', hget', hrole'.trans hrole⟩
  · rw [hs] at hl
    exact ⟨s.user, hl.user_kept hl.attached.1, rfl⟩

/-- In every run from the empty database, in which whoever deactivates a user is still
    active, there is an active administrator in every state that has a user. -/
theorem administrator_left (actions : List Action)
    (stands : Along (step prim allowSignup) Stands { tables := {} } actions) :
    Along (step prim allowSignup) (fun σ a => Administered (step prim allowSignup σ a).tables)
      { tables := {} } actions := by
  refine stands.of_invariant (fun σ => Administered σ.tables ∧ Rooted σ) ?_ ?_ ⟨?_, ?_⟩
  · rintro σ a ⟨h, hrooted⟩ hstands
    exact ⟨administered_step h hrooted hstands, rooted_step hrooted⟩
  · rintro σ a ⟨h, hrooted⟩ hstands
    exact administered_step h hrooted hstands
  · intro hrows
    exact absurd rfl hrows
  · intro j q s hq
    cases hq

end Administration

/-! ## Two administrators -/

theorem not_administered {t : Tables}
    (h : !t.users.rows.isEmpty && t.users.rows.all (fun r => r.2.role != .admin || !r.2.active)) :
    ¬ Administered t := by
  rw [Bool.and_eq_true, Bool.not_eq_true', List.isEmpty_eq_false_iff, List.all_eq_true] at h
  obtain ⟨hne, hall⟩ := h
  intro hadmin
  obtain ⟨id, user, hget, hrole, hactive⟩ := hadmin hne
  have hno := hall _ (Sqlite.Table.get_eq_some.mp hget)
  simp [hrole, hactive] at hno

/-- Ann signs up, creates Bob, and Bob logs in. -/
def twoAdministrators : List Action :=
  Action.whole 0 .signup (.withToken "") (.ofFields [("email", "ann@example.com"),
    ("password", "a long password"), ("password_confirm", "a long password")])
    (.drawing "s1") ++
  Action.whole 0 .userCreate (.withToken "s1") (.ofFields [("csrf_token", "s1"),
    ("email", "bob@example.com"), ("password", "another password"), ("role", "admin")]) {} ++
  Action.whole 0 .login (.withToken "") (.ofFields [("email", "bob@example.com"),
    ("password", "another password")]) (.drawing "s2")

/-- Who goes on under a number is active. -/
def State.standing (σ : State) (i : Nat) : Bool :=
  (σ.suspended i).all fun p => p.snapshot.all fun s =>
    (σ.tables.users.get s.userId).any User.active

theorem stands_of_standing {σ : State} {i : Nat} {form : Form} {input : Input}
    (h : σ.standing i = true) : Stands σ (.resume i form input) := by
  intro p target s hp _ hauth
  unfold State.standing at h
  rw [hp, Option.all_some, hauth.loaded, Option.all_some, Option.any_eq_true] at h
  exact h

theorem administrator_left_two :
    Along (step .plain true) (fun σ a => Administered (step .plain true σ a).tables)
      { tables := {} } (twoAdministrators ++
        Action.whole 0 (.userDeactivate 2) (.withToken "s1")
          (.ofFields [("csrf_token", "s1")]) {}) := by
  apply administrator_left
  refine ⟨trivial, trivial, ?_, trivial, trivial, ?_, trivial, trivial, ?_, trivial, trivial, ?_,
    trivial⟩
  all_goals exact stands_of_standing (by decide +kernel)

/-- Each comes to the form of a request that deactivates the other, and both go on. -/
theorem administrators_deactivated :
    ¬ Along (step .plain true) (fun σ a => Administered (step .plain true σ a).tables)
      { tables := {} } (twoAdministrators ++
        [.arrive 1 (.userDeactivate 2) (.withToken "s1") .epoch, .enter 1 .epoch,
          .arrive 2 (.userDeactivate 1) (.withToken "s2") .epoch, .enter 2 .epoch,
          .resume 1 (.ofFields [("csrf_token", "s1")]) {},
          .resume 2 (.ofFields [("csrf_token", "s2")]) {}]) := by
  intro h
  obtain ⟨-, -, -, -, -, -, -, -, -, -, -, -, -, -, hlast, -⟩ : Along _ _ _ (_ :: _) := h
  exact not_administered (by decide +kernel) hlast

end console
end HookGuard
