import HookGuard.Console.Administrators
import HookGuard.Console.SessionRows

/- Where the rows of the accounts come from, over whole runs: which request opened an
   account and in which role, which one set its password, and which one started a session
   (`routes/auth.py`, `routes/settings.py`, `middleware.py`).

   A statement of a handler is traced back to what the handler checked before it
   (`plan_createUser`, `plan_updatePasswordHash`, `plan_createSession`), and a row of a
   table to the statement that wrote it (`execute_user_origin`). What is in the tables after
   a run and was not there before it came about at one of its steps (`exists_turn`). -/
namespace HookGuard
open Py store auth Runs

namespace store

/-! ## Which statement wrote a user's row -/

section Users
variable {t : Tables} {id : Nat} {user : User}

/-- A user's row is the new one, or one that was there with the same address and role, and
    with the same hash unless the statement sets it. -/
theorem Statement.user_origin {st : Statement} (h : (st.apply t).users.get id = some user) :
    (t.users.get id = none ∧ ∃ createdAt,
      st = .createUser user.email user.passwordHash user.role createdAt) ∨
    ∃ before, t.users.get id = some before ∧ user.email = before.email ∧
      user.role = before.role ∧ (user.passwordHash = before.passwordHash ∨
        st = .updatePasswordHash id user.passwordHash) := by
  cases st with
  | createUser email passwordHash role createdAt =>
    simp only [apply, Sqlite.Table.get_insert] at h
    split at h
    · next hid =>
      obtain rfl := Option.some.inj h
      exact .inl ⟨by rw [hid, Sqlite.Table.get_nextId], createdAt, rfl⟩
    · exact .inr ⟨user, h, rfl, rfl, .inl rfl⟩
  | updatePasswordHash userId passwordHash =>
    simp only [apply, Sqlite.Table.get_update] at h
    obtain ⟨before, hbefore, huser⟩ := Option.map_eq_some_iff.mp h
    refine .inr ⟨before, hbefore, ?_⟩
    split at huser
    · next hid =>
      obtain rfl : (id : Int) = userId := beq_iff_eq.mp hid
      rw [← huser]
      exact ⟨rfl, rfl, .inr rfl⟩
    · rw [← huser]
      exact ⟨rfl, rfl, .inl rfl⟩
  | setUserActive userId active =>
    simp only [apply, Sqlite.Table.get_update] at h
    obtain ⟨before, hbefore, huser⟩ := Option.map_eq_some_iff.mp h
    refine .inr ⟨before, hbefore, ?_⟩
    split at huser
    · rw [← huser]
      exact ⟨rfl, rfl, .inl rfl⟩
    · rw [← huser]
      exact ⟨rfl, rfl, .inl rfl⟩
  | _ => exact .inr ⟨user, h, rfl, rfl, .inl rfl⟩

/-- The row of a user after statements: a new one of theirs, or one that was there. -/
inductive UserOrigin (t : Tables) (sts : List Statement) (id : Nat) (user : User) : Prop
  | created {passwordHash : Str} {createdAt : Int} (new : t.users.get id = none)
      (created : .createUser user.email passwordHash user.role createdAt ∈ sts)
      (hash : user.passwordHash = passwordHash ∨ .updatePasswordHash id user.passwordHash ∈ sts)
  | kept {before : User} (was : t.users.get id = some before) (email : user.email = before.email)
      (role : user.role = before.role) (hash : user.passwordHash = before.passwordHash ∨
        .updatePasswordHash id user.passwordHash ∈ sts)

theorem execute_user_origin {sts : List Statement}
    (h : (execute sts t).tables.users.get id = some user) : UserOrigin t sts id user := by
  -- and a user that was there stays
  refine (execute_induction (P := fun t' => (t.users.get id ≠ none → t'.users.get id ≠ none) ∧
    ∀ user, t'.users.get id = some user → UserOrigin t sts id user) ?_ ⟨fun h => h, ?_⟩).2 user h
  · rintro st hst t' ⟨hstays, ih⟩ -
    refine ⟨?_, ?_⟩
    · intro hne
      obtain ⟨first, hfirst⟩ := Option.ne_none_iff_exists'.mp (hstays hne)
      obtain ⟨after, hafter, -⟩ := Statement.user_persists st hfirst
      rw [hafter]
      exact Option.some_ne_none after
    · intro user h
      rcases Statement.user_origin h with ⟨hnone, createdAt, rfl⟩ | ⟨mid, hmid, he, hr, hp⟩
      · refine .created ?_ hst (.inl rfl)
        by_contra hne
        exact hstays hne hnone
      · -- the hash it had, or the one the statement sets
        have hash : ∀ {old : Str},
            (mid.passwordHash = old ∨ .updatePasswordHash id mid.passwordHash ∈ sts) →
            user.passwordHash = old ∨ .updatePasswordHash id user.passwordHash ∈ sts := by
          intro old hold
          rcases hp with hp | rfl
          · rw [hp]
            exact hold
          · exact .inr hst
        cases ih mid hmid with
        | created new created hmidhash =>
          rw [← he, ← hr] at created
          exact .created new created (hash hmidhash)
        | kept was email role hmidhash =>
          exact .kept was (he.trans email) (hr.trans role) (hash hmidhash)
  · intro user h
    exact .kept h rfl rfl (.inl rfl)

end Users

end store

namespace console

/-! ## What a handler checked before its statement -/

/-- A password of a form that passes the policy, and the hash made of it. -/
structure Chosen (prim : Primitives) (form : Form) (input : Input) (field : Str)
    (passwordHash : Str) : Prop where
  valid : validatePassword (form.get field []) = none
  hashed : prim.hashPassword input.salt (form.get field []) = .ok passwordHash

/-- The request opens an account: it signs up, the first as administrator, or an
    administrator chooses the role. -/
inductive Creates (prim : Primitives) (t : Tables) (p : Pending) (form : Form) (role : Role) :
    Prop
  | signup (handler : p.handler = .signup)
      (role : role = if t.users.rows.length = 0 then .admin else .member)
  | invited (s : Snapshot) (handler : p.handler = .userCreate)
      (auth : Authorized p.request p.snapshot form s)
      (role : Role.ofText (form.get (lit "role") (lit "member")) = some role)

/-- The request changes the password of its session's user, or carries the user's token. -/
inductive Changes (prim : Primitives) (t : Tables) (p : Pending) (form : Form) (input : Input)
    (uid : Int) (passwordHash : Str) : Prop
  | changed (s : Snapshot) (handler : p.handler = .passwordChange)
      (auth : Authorized p.request p.snapshot form s) (own : uid = s.userId)
      (changes : ChangesPassword prim s form)
      (chosen : Chosen prim form input (lit "new_password") passwordHash)
  | reset (handler : p.handler = .resetPassword) (resets : ResetsPassword prim t form input uid)
      (chosen : Chosen prim form input (lit "password") passwordHash)

/-- The request shows the password of an active user, or has just signed the user up. -/
inductive Proves (prim : Primitives) (t : Tables) (p : Pending) (form : Form) (input : Input)
    (userId : Nat) : Prop
  | login {user : User} (handler : p.handler = .login)
      (found : t.userByEmail (normalizeEmail prim (form.get (lit "email") [])) =
        some (userId, user))
      (active : user.active = true)
      (verified : prim.verifyPassword (form.get (lit "password") []) user.passwordHash = .ok true)
  | signup {passwordHash : Str} (handler : p.handler = .signup) (new : userId = t.users.nextId)
      (unknown : t.userByEmail (normalizeEmail prim (form.get (lit "email") [])) = none)
      (chosen : Chosen prim form input (lit "password") passwordHash)

section Plans
variable {prim : Primitives} {t : Tables} {limiter : Limiter} {p : Pending} {form : Form}
  {input : Input}

/-- What a signup has executed: nothing, or the statements of a new account. -/
theorem handleSignup_statements (prim : Primitives) (t : Tables) (request : Request)
    (form : Form) (input : Input) :
    (handleSignup prim t request form input).statements = [] ∨
      ∃ email passwordHash, email = normalizeEmail prim (form.get (lit "email") []) ∧
        t.userByEmail email = none ∧ Chosen prim form input (lit "password") passwordHash ∧
        (handleSignup prim t request form input).statements =
          (withSession prim request t.users.nextId input
            [.createUser email passwordHash
              (if t.users.rows.length = 0 then .admin else .member) input.created.unixMs,
              record request .userCreate email (some t.users.nextId) input]
            (lit "/dashboard")).statements := by
  unfold handleSignup
  simp only
  split
  · exact .inl rfl
  · split
    · exact .inl rfl
    · next hvalid =>
      unfold Plan.lookUp
      split
      · exact .inl rfl
      · split
        · exact .inl rfl
        · next hunknown =>
          split
          · exact .inl rfl
          · next hhashed =>
            exact .inr ⟨_, _, rfl, by simpa using hunknown, ⟨hvalid, hhashed⟩, rfl⟩

theorem withSession_mem {request : Request} {userId : Nat} {statements : List Statement}
    {location : Str} {st : Statement}
    (h : st ∈ (withSession prim request userId input statements location).statements) :
    st ∈ statements ∨ startSession prim request userId input = .ok st := by
  unfold withSession at h
  split at h
  · exact .inl h
  · next hstart =>
    rcases List.mem_append.mp h with h | h
    · exact .inl h
    · exact .inr (List.mem_singleton.mp h ▸ hstart)

/-- What a login has executed: its record, and a session of the user whose password was
    given. -/
theorem handleLogin_createSession {request : Request} {row : Session}
    (h : .createSession row ∈ (handleLogin prim t request form input limiter).statements) :
    startSession prim request row.userId input = .ok (.createSession row) ∧
      ∃ user, t.userByEmail (normalizeEmail prim (form.get (lit "email") [])) =
          some (row.userId, user) ∧ user.active = true ∧
        prim.verifyPassword (form.get (lit "password") []) user.passwordHash = .ok true := by
  unfold handleLogin loginTraced at h
  simp only at h
  split at h
  · cases h
  · cases h
  · simp only [authenticate] at h
    split at h
    · cases h
    · split at h
      · split at h
        · cases h
        · simp [record] at h
      · next id user hfind =>
        split at h
        · simp [record] at h
        · next hactive =>
          split at h
          · cases h
          · simp [record] at h
          · next hverified =>
            unfold loggedIn at h
            simp only at h
            split at h
            · simp [record] at h
            · rcases withSession_mem h with h | hstart
              · simp [record] at h
              · obtain ⟨session, heq, huser⟩ := startSession_eq_ok hstart
                obtain rfl := Statement.createSession.inj heq
                rw [huser]
                exact ⟨hstart, user, hfind, eq_true_of_ne_false hactive, hverified⟩

theorem requireCsrf_statements {request : Request} {snapshot : Option Snapshot}
    {rest : Snapshot → Plan} {st : Statement}
    (h : st ∈ (requireCsrf request snapshot form rest).statements) :
    ∃ s, Authorized request snapshot form s ∧ st ∈ (rest s).statements := by
  unfold requireCsrf at h
  split at h
  · cases h
  · split at h
    · cases h
    · cases h
    · next s _ hcsrf => exact ⟨s, ⟨rfl, hcsrf⟩, h⟩

theorem handleUserCreate_createUser {request : Request} {snapshot : Option Snapshot}
    {email passwordHash : Str} {role : Role} {createdAt : Int}
    (h : .createUser email passwordHash role createdAt ∈
      (handleUserCreate prim t request snapshot form input).statements) :
    ∃ s, Authorized request snapshot form s ∧
      Role.ofText (form.get (lit "role") (lit "member")) = some role ∧
      email = normalizeEmail prim (form.get (lit "email") []) ∧
      Chosen prim form input (lit "password") passwordHash := by
  obtain ⟨s, hauth, h⟩ := requireCsrf_statements h
  simp only at h
  split at h
  · cases h
  · split at h
    · cases h
    · next hrole =>
      split at h
      · cases h
      · next hvalid =>
        split at h
        · cases h
        · next hhashed =>
          simp only [record, List.mem_cons, Statement.createUser.injEq, List.not_mem_nil,
            reduceCtorEq, or_false] at h
          obtain ⟨rfl, rfl, rfl, -⟩ := h
          exact ⟨s, hauth, hrole, rfl, hvalid, hhashed⟩

theorem handlePasswordChange_updatePasswordHash {request : Request}
    {snapshot : Option Snapshot} {uid : Int} {passwordHash : Str}
    (h : .updatePasswordHash uid passwordHash ∈
      (handlePasswordChange prim request snapshot form input).statements) :
    ∃ s, Authorized request snapshot form s ∧ uid = s.userId ∧ ChangesPassword prim s form ∧
      Chosen prim form input (lit "new_password") passwordHash := by
  obtain ⟨s, hauth, h⟩ := requireCsrf_statements h
  simp only at h
  split at h
  · cases h
  · cases h
  · next hverified =>
    split at h
    · cases h
    · next hconfirmed =>
      split at h
      · cases h
      · next hvalid =>
        split at h
        · cases h
        · next hhashed =>
          simp only [record, List.mem_cons, Statement.updatePasswordHash.injEq,
            List.not_mem_nil, reduceCtorEq, or_false] at h
          obtain ⟨rfl, rfl⟩ := h
          exact ⟨s, hauth, rfl, ⟨hverified, not_not.mp hconfirmed, hvalid⟩, hvalid, hhashed⟩

theorem handleResetPassword_updatePasswordHash {request : Request} {uid : Int}
    {passwordHash : Str} (h : .updatePasswordHash uid passwordHash ∈
      (handleResetPassword prim t request form input).statements) :
    ResetsPassword prim t form input uid ∧
      Chosen prim form input (lit "password") passwordHash := by
  unfold handleResetPassword at h
  split at h
  · cases h
  · next uid' huid =>
    split at h
    · cases h
    · next statements hconsume =>
      rcases consumeResetToken_statements hconsume with rfl | ⟨rfl, -⟩
      · simp at h
      · cases h
    · next statements hconsume =>
      rcases consumeResetToken_statements hconsume with rfl | ⟨-, hfalse⟩
      · unfold resetPassword at h
        simp only at h
        split at h
        · simp at h
        · next hconfirmed =>
          split at h
          · simp at h
          · next hvalid =>
            split at h
            · simp at h
            · next hhashed =>
              simp only [record, List.cons_append, List.nil_append, List.mem_cons,
                Statement.updatePasswordHash.injEq, List.not_mem_nil, reduceCtorEq, or_false,
                false_or] at h
              obtain ⟨rfl, rfl⟩ := h
              exact ⟨⟨huid, hconsume, not_not.mp hconfirmed, hvalid⟩, hvalid, hhashed⟩
      · cases hfalse

theorem Effect.handler {request : Request} {snapshot : Option Snapshot} {h : Handler}
    {sts : List Statement} (heff : Effect prim t request snapshot form input h sts) :
    (∀ email passwordHash role createdAt, .createUser email passwordHash role createdAt ∈ sts →
      h = .signup ∨ h = .userCreate) ∧
    (∀ uid passwordHash, .updatePasswordHash uid passwordHash ∈ sts →
      h = .passwordChange ∨ h = .resetPassword) ∧
    ∀ row, .createSession row ∈ sts → h = .login ∨ h = .signup := by
  cases heff with
  | configured s given auth st acts configures =>
    refine ⟨?_, ?_, ?_⟩
    · intro _ _ _ _ hst
      rw [← List.mem_singleton.mp hst] at configures
      exact configures.elim
    · intro _ _ hst
      rw [← List.mem_singleton.mp hst] at configures
      exact configures.elim
    · intro _ hst
      rw [← List.mem_singleton.mp hst] at configures
      exact configures.elim
  | _ => simp

theorem plan_createUser {email passwordHash : Str} {role : Role} {createdAt : Int}
    (h : .createUser email passwordHash role createdAt ∈
      (plan prim t limiter p form input).statements) :
    Creates prim t p form role ∧ email = normalizeEmail prim (form.get (lit "email") []) ∧
      Chosen prim form input (lit "password") passwordHash := by
  have hhandler := (plan_effect prim t limiter p form input).handler.1 _ _ _ _ h
  obtain ⟨handler, request, snapshot, entered, passed⟩ := p
  rcases hhandler with rfl | rfl
  · rcases handleSignup_statements prim t request form input with hnone | hsome
    · have : (_ : Statement) ∈ (handleSignup prim t request form input).statements := h
      rw [hnone] at this
      cases this
    · obtain ⟨email', passwordHash', hemail, -, hchosen, hsts⟩ := hsome
      have hmem : (_ : Statement) ∈ (handleSignup prim t request form input).statements := h
      rw [hsts] at hmem
      rcases withSession_mem hmem with hmem | hstart
      · simp only [record, List.mem_cons, Statement.createUser.injEq, List.not_mem_nil,
          reduceCtorEq, or_false] at hmem
        obtain ⟨rfl, rfl, rfl, -⟩ := hmem
        exact ⟨.signup rfl rfl, hemail, hchosen⟩
      · obtain ⟨session, heq, -⟩ := startSession_eq_ok hstart
        cases heq
  · obtain ⟨s, hauth, hrole, hemail, hchosen⟩ := handleUserCreate_createUser h
    exact ⟨.invited s rfl hauth hrole, hemail, hchosen⟩

theorem plan_updatePasswordHash {uid : Int} {passwordHash : Str}
    (h : .updatePasswordHash uid passwordHash ∈ (plan prim t limiter p form input).statements) :
    Changes prim t p form input uid passwordHash := by
  have hhandler := (plan_effect prim t limiter p form input).handler.2.1 _ _ h
  obtain ⟨handler, request, snapshot, entered, passed⟩ := p
  rcases hhandler with rfl | rfl
  · obtain ⟨s, hauth, hown, hchanges, hchosen⟩ := handlePasswordChange_updatePasswordHash h
    exact .changed s rfl hauth hown hchanges hchosen
  · obtain ⟨hresets, hchosen⟩ := handleResetPassword_updatePasswordHash h
    exact .reset rfl hresets hchosen

theorem plan_createSession {row : Session}
    (h : .createSession row ∈ (plan prim t limiter p form input).statements) :
    startSession prim p.request row.userId input = .ok (.createSession row) ∧
      Proves prim t p form input row.userId := by
  have hhandler := (plan_effect prim t limiter p form input).handler.2.2 _ h
  obtain ⟨handler, request, snapshot, entered, passed⟩ := p
  rcases hhandler with rfl | rfl
  · obtain ⟨hstart, user, hfind, hactive, hverified⟩ := handleLogin_createSession h
    exact ⟨hstart, .login rfl hfind hactive hverified⟩
  · have hmem : .createSession row ∈ (handleSignup prim t request form input).statements := h
    rcases handleSignup_statements prim t request form input with hnone | hsome
    · rw [hnone] at hmem
      cases hmem
    · obtain ⟨email, passwordHash, rfl, hunknown, hchosen, hsts⟩ := hsome
      rw [hsts] at hmem
      rcases withSession_mem hmem with hmem | hstart
      · simp [record] at hmem
      · obtain ⟨session, heq, huser⟩ := startSession_eq_ok hstart
        obtain rfl := Statement.createSession.inj heq
        rw [huser]
        exact ⟨hstart, .signup rfl rfl hunknown hchosen⟩

end Plans

/-! ## The step that did it -/

section Steps
variable (prim : Primitives) (σ : State)

/-- The step opens an account of an address in a role: a signup, whose account is the
    administrator where there is none yet and a member else; or a request of somebody who is
    an administrator, in the role its form names. -/
def Opens (email : Str) (role : Role) : Action → Prop
  | .resume i form _ => ∃ p, σ.suspended i = some p ∧
      email = normalizeEmail prim (form.get (lit "email") []) ∧
      (p.handler = .signup ∧ role = (if σ.tables.users.rows.length = 0 then .admin else .member) ∨
        p.handler = .userCreate ∧
          Role.ofText (form.get (lit "role") (lit "member")) = some role ∧
          ∃ s admin, Authorized p.request p.snapshot form s ∧
            σ.tables.users.get s.userId = some admin ∧ admin.role = .admin)
  | _ => False

/-- The step sets the password of a user, to one that passes the policy: it opens the
    account, or is the user's own change under the current password, or a reset under the
    user's token. -/
def SetsPassword (id : Nat) (passwordHash : Str) : Action → Prop
  | .resume i form input => ∃ p, σ.suspended i = some p ∧
      (σ.tables.users.get id = none ∧ Chosen prim form input (lit "password") passwordHash ∧
          (∃ role, Creates prim σ.tables p form role) ∨
        Changes prim σ.tables p form input id passwordHash)
  | _ => False

/-- The step starts a session, for a user whose password was given or who has just signed
    up, under a token that it draws. -/
def Starts (row : Session) : Action → Prop
  | .resume i form input => ∃ p, σ.suspended i = some p ∧
      hashToken prim input.token = .ok row.tokenHash ∧
      Proves prim σ.tables p form input row.userId
  | _ => False

end Steps

/-- The session is the same, but for when it was last seen. -/
def SameSession (row row' : Session) : Prop := { row with lastSeenAt := row'.lastSeenAt } = row'

section Turns
variable {prim : Primitives} {allowSignup : Bool} {σ σ' : State} {a : Action} {id : Nat}

theorem SameSession.refl (row : Session) : SameSession row row := rfl

theorem SameSession.trans {r₁ r₂ r₃ : Session} (h : SameSession r₁ r₂) (h' : SameSession r₂ r₃) :
    SameSession r₁ r₃ := by
  unfold SameSession at *
  rw [← h', ← h]

theorem Stepped.opens (h : Stepped prim σ a σ') (hrooted : Rooted σ) {user : User}
    (hnone : σ.tables.users.get id = none) (hget : σ'.tables.users.get id = some user) :
    Opens prim σ user.email user.role a := by
  obtain ⟨sts, htables, hsts⟩ := h.statements
  rw [htables] at hget
  cases execute_user_origin hget with
  | kept was => cases hnone.symm.trans was
  | created new created hash =>
    rcases hsts with hserves | ⟨i, form, input, p, rfl, hp, rfl⟩
    · exact (hserves _ created).elim
    · obtain ⟨hcreates, hemail, -⟩ := plan_createUser created
      refine ⟨p, hp, hemail, ?_⟩
      cases hcreates with
      | signup handler role => exact .inl ⟨handler, role⟩
      | invited s handler auth role =>
        obtain ⟨hpending, hentered⟩ := State.suspended_eq_some.mp hp
        -- the guard has let an administrator through, who is one still
        have hguard := p.passed hentered
        rw [handler] at hguard
        obtain ⟨s', hs', hadmin⟩ := requireAdmin_eq_none hguard
        obtain rfl : s = s' := Option.some.inj (auth.loaded.symm.trans hs')
        obtain ⟨admin, hadminget, hrole⟩ := hrooted i p s hpending auth.loaded
        exact .inr ⟨handler, role, s, admin, auth, hadminget, hrole.trans hadmin⟩

theorem Stepped.sets_password (h : Stepped prim σ a σ') {user : User}
    (hbefore : ∀ before, σ.tables.users.get id = some before →
      before.passwordHash ≠ user.passwordHash)
    (hget : σ'.tables.users.get id = some user) :
    SetsPassword prim σ id user.passwordHash a := by
  obtain ⟨sts, htables, hsts⟩ := h.statements
  rw [htables] at hget
  have updated (hmem : .updatePasswordHash id user.passwordHash ∈ sts) :
      SetsPassword prim σ id user.passwordHash a := by
    rcases hsts with hserves | ⟨i, form, input, p, rfl, hp, rfl⟩
    · exact (hserves _ hmem).elim
    · exact ⟨p, hp, .inr (plan_updatePasswordHash hmem)⟩
  cases execute_user_origin hget with
  | kept was email role hash =>
    exact updated (hash.resolve_left fun heq => hbefore _ was heq.symm)
  | created new created hash =>
    rcases hash with rfl | hmem
    · rcases hsts with hserves | ⟨i, form, input, p, rfl, hp, rfl⟩
      · exact (hserves _ created).elim
      · obtain ⟨hcreates, -, hchosen⟩ := plan_createUser created
        exact ⟨p, hp, .inl ⟨new, hchosen, _, hcreates⟩⟩
    · exact updated hmem

/-- After a step, a session is one that was there, or one that the step starts. -/
theorem Stepped.starts (h : Stepped prim σ a σ') {row : Session}
    (hget : σ'.tables.sessions.get id = some row) :
    (∃ before, σ.tables.sessions.get id = some before ∧ SameSession before row) ∨
      Starts prim σ row a := by
  obtain ⟨sts, htables, hsts⟩ := h.statements
  rw [htables] at hget
  rcases hsts with hserves | ⟨i, form, input, p, rfl, hp, rfl⟩
  · left
    refine execute_induction (P := fun t => ∀ row, t.sessions.get id = some row →
      ∃ before, σ.tables.sessions.get id = some before ∧ SameSession before row)
      ?_ (fun row h => ⟨row, h, .refl row⟩) row hget
    intro st hst t ih _ row hget
    rcases Statement.session_origin hget with ⟨rfl, -⟩ | ⟨mid, hmid, rfl | ⟨lastSeenAt, -, rfl⟩⟩
    · exact (hserves _ hst).elim
    · exact ih row hmid
    · obtain ⟨before, hbefore, hsame⟩ := ih mid hmid
      exact ⟨before, hbefore, hsame.trans rfl⟩
  · have heff := plan_effect prim σ.tables σ.loginLimiter p form input
    have htouch := fun st hst => heff.sessions.1 st hst id
    rcases execute_session_origin htouch hget with hbefore | hcreate
    · exact .inl ⟨row, hbefore, .refl row⟩
    · obtain ⟨hstart, hproves⟩ := plan_createSession hcreate
      exact .inr ⟨p, hp, (startSession_row hstart).1, hproves⟩

theorem rooted_run (actions : List Action) :
    Rooted (actions.foldl (step prim allowSignup) { tables := {} }) := by
  induction actions using List.reverseRecOn with
  | nil =>
    intro j q s hq
    cases hq
  | append_singleton actions a ih =>
    rw [List.foldl_append]
    exact rooted_step ih

end Turns

/-! ## Over whole runs -/

/-- Every account that is there after a run from the empty database was opened at one of its
    steps, after which it was there, with its address and in the role it has: by a signup, as
    administrator only where there was no account at all; or by a request of an
    administrator, in the role its form names. -/
theorem accounts_appointed (prim : Primitives) (allowSignup : Bool) (actions : List Action)
    (id : Nat) (user : User)
    (hget : (actions.foldl (step prim allowSignup) { tables := {} }).tables.users.get id =
      some user) :
    ∃ before a after, actions = before ++ a :: after ∧
      (before.foldl (step prim allowSignup) { tables := {} }).tables.users.get id = none ∧
      Opens prim (before.foldl (step prim allowSignup) { tables := {} }) user.email user.role
        a ∧
      ∃ opened, (step prim allowSignup (before.foldl (step prim allowSignup) { tables := {} })
          a).tables.users.get id = some opened ∧
        opened.email = user.email ∧ opened.role = user.role := by
  obtain ⟨before, a, after, rfl, hnot, user', hget', hemail, hrole⟩ := exists_turn
    (Q := fun σ : State => ∃ user', σ.tables.users.get id = some user' ∧
      user'.email = user.email ∧ user'.role = user.role)
    (by rintro ⟨user', h, -⟩; cases h) ⟨user, hget, rfl, rfl⟩
  have hstep := step_stepped prim allowSignup
    (before.foldl (step prim allowSignup) { tables := {} }) a
  have hnone : (before.foldl (step prim allowSignup) { tables := {} }).tables.users.get id =
      none := by
    by_contra hne
    obtain ⟨first, hfirst⟩ := Option.ne_none_iff_exists'.mp hne
    -- it would have had the address and the role already
    obtain ⟨after', hafter', he, hr, -⟩ := hstep.user_persists hfirst
    obtain rfl := Option.some.inj (hafter'.symm.trans hget')
    exact hnot ⟨first, hfirst, he.symm.trans hemail, hr.symm.trans hrole⟩
  refine ⟨before, a, after, rfl, hnone, ?_, user', hget', hemail, hrole⟩
  rw [← hemail, ← hrole]
  exact hstep.opens (rooted_run before) hnone hget'

/-- Bob, whom Ann has created. -/
def bob : User := ⟨lit "bob@example.com", lit "another password", .admin, true, 0⟩

theorem accounts_appointed_bob : ∃ before a after, twoAdministrators = before ++ a :: after ∧
    (before.foldl (step .plain true) { tables := {} }).tables.users.get 2 = none ∧
    Opens .plain (before.foldl (step .plain true) { tables := {} }) (lit "bob@example.com")
      .admin a ∧
    ∃ opened, (step .plain true (before.foldl (step .plain true) { tables := {} })
        a).tables.users.get 2 = some opened ∧
      opened.email = lit "bob@example.com" ∧ opened.role = .admin :=
  accounts_appointed .plain true twoAdministrators 2 bob (by decide +kernel)

/-- Whoever a request acts for, in a run from the empty database: its cookie carries the
    token of a session that was started at an earlier step, for this user, whose password
    was given there, or who signed up there. -/
theorem authenticated_by_password (prim : Primitives) (allowSignup : Bool)
    (actions : List Action) (j : Nat) (q : Pending) (s : Snapshot)
    (hq : (actions.foldl (step prim allowSignup) { tables := {} }).pending j = some q)
    (hs : q.snapshot = some s) :
    presented prim q.request = .ok (some s.session.tokenHash) ∧
    ∃ before a after, actions = before ++ a :: after ∧
      Starts prim (before.foldl (step prim allowSignup) { tables := {} }) s.session a ∧
      ∃ id row, (step prim allowSignup (before.foldl (step prim allowSignup) { tables := {} })
          a).tables.sessions.get id = some row ∧ SameSession row s.session := by
  obtain ⟨arrived, a₁, after₁, rfl, hnot, q', hq', hrequest, hsnapshot⟩ := exists_turn
    (Q := fun σ : State => ∃ q', σ.pending j = some q' ∧ q'.request = q.request ∧
      q'.snapshot = q.snapshot)
    (by rintro ⟨q', h, -⟩; cases h) ⟨q, hq, rfl, rfl⟩
  have hstep := step_stepped prim allowSignup
    (arrived.foldl (step prim allowSignup) { tables := {} }) a₁
  rcases hstep.pending_origin hq' with ⟨q₀, hq₀, -, hr₀, hs₀⟩ | ⟨now, -, -, hl⟩
  · exact absurd ⟨q₀, hq₀, hr₀.trans hrequest, hs₀.trans hsnapshot⟩ hnot
  rw [hsnapshot, hs, hrequest] at hl
  cases hl with
  | anonymous nobody => exact absurd rfl (nobody s)
  | expired nobody => exact absurd rfl (nobody s)
  | @live h id session touch attached token found hash tables =>
    obtain ⟨-, rfl, -⟩ := attached s rfl
    subst hash
    refine ⟨token, ?_⟩
    -- the session was in the table when the request arrived
    obtain ⟨before, a, after, rfl, hnew, id', row, hrow, hsame⟩ := exists_turn
      (Q := fun σ : State => ∃ id row, σ.tables.sessions.get id = some row ∧
        SameSession row s.session)
      (by rintro ⟨id, row, h, -⟩; cases h) ⟨id, s.session, found, .refl _⟩
    refine ⟨before, a, after ++ a₁ :: after₁, by simp, ?_, id', row, hrow, hsame⟩
    rcases (step_stepped prim allowSignup _ a).starts hrow with ⟨row₀, hrow₀, hsame₀⟩ | hstarts
    · exact absurd ⟨id', row₀, hrow₀, hsame₀.trans hsame⟩ hnew
    · rw [← hsame]
      cases a <;> exact hstarts

/-- Bob logs in, and comes with a request. -/
def bobArrives : List Action :=
  twoAdministrators ++ [.arrive 0 .view (.withToken "s2") .epoch]

theorem authenticated_by_password_bob : ∃ s : Snapshot, s.userId = 2 ∧
    ∃ before a after, bobArrives = before ++ a :: after ∧
      Starts .plain (before.foldl (step .plain true) { tables := {} }) s.session a ∧
      ∃ id row, (step .plain true (before.foldl (step .plain true) { tables := {} })
          a).tables.sessions.get id = some row ∧ SameSession row s.session := by
  have hsome : ((bobArrives.foldl (step .plain true) { tables := {} }).pending 0).isSome =
      true := by decide +kernel
  have huser : (((bobArrives.foldl (step .plain true) { tables := {} }).pending 0).bind
      Pending.snapshot).map Snapshot.userId = some 2 := by decide +kernel
  obtain ⟨q, hq⟩ := Option.isSome_iff_exists.mp hsome
  rw [hq, Option.bind_some] at huser
  obtain ⟨s, hs, hid⟩ := Option.map_eq_some_iff.mp huser
  exact ⟨s, hid, (authenticated_by_password .plain true bobArrives 0 q s hq hs).2⟩

end console
end HookGuard
