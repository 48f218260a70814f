import HookGuard.Console.Interleaving
import HookGuard.Lib.Runs

/- Whether a member can touch the account of another user (`routes/auth.py`,
   `routes/settings.py`, `store/sessions.py`).

   Sessions are deleted by the id that the middleware read, and an id is given out again
   once its row and those after it are deleted. A logout that is suspended while its session
   is deleted and the id goes to somebody else logs that somebody out
   (`other_session_deleted`). Where a logout finds no other user's session under its id, no
   member's request changes another user's row or session (`accounts_isolated`). -/
namespace HookGuard
open Py store auth Runs

namespace console

/-- The other users' rows, and their sessions, are as they were. -/
structure Untouched (t t' : Tables) (userId : Nat) : Prop where
  users : ∀ id user, id ≠ userId → t.users.get id = some user → t'.users.get id = some user
  sessions : ∀ id row, row.userId ≠ userId → t.sessions.get id = some row →
    t'.sessions.get id = some row

/-- A submission of the reset page with the user's token. -/
def CarriesResetToken (prim : Primitives) (t : Tables) (p : Pending) (form : Form)
    (input : Input) : Prop :=
  p.handler = .resetPassword ∧ ∃ uid sts, pyInt (form.get (lit "uid") []) = some uid ∧
    consumeResetToken prim t input uid (form.get (lit "token") []) = .ok (sts, true)

section System
variable (prim : Primitives) (allowSignup : Bool)

/-- A step of a request that is authenticated as a member touches no other account. -/
def Isolated (σ : State) (a : Action) : Prop :=
  match a with
  | .arrive _ _ request now => ∀ s, (load prim σ.tables request now).2 = .ok (some s) →
      s.user.role = .member → Untouched σ.tables (step prim allowSignup σ a).tables s.userId
  | .resume i form input => ∀ p s, σ.suspended i = some p → p.snapshot = some s →
      s.user.role = .member → ¬ CarriesResetToken prim σ.tables p form input →
      Untouched σ.tables (step prim allowSignup σ a).tables s.userId
  | _ => True

end System

/-- A member's logout goes on while no other user's session has the id of its own. -/
def OwnsId (σ : State) : Action → Prop
  | .resume i form _ => ∀ p s row, σ.suspended i = some p → p.handler = .logout →
      Authorized p.request p.snapshot form s → s.user.role = .member →
      σ.tables.sessions.get s.sessionId = some row → row.userId = s.userId
  | _ => True

section Isolation
variable {prim : Primitives} {allowSignup : Bool}

theorem Untouched.refl (t : Tables) (userId : Nat) : Untouched t t userId :=
  ⟨fun _ _ _ h => h, fun _ _ _ h => h⟩

theorem untouched_execute {t : Tables} {sts : List Statement} {userId : Nat}
    (husers : ∀ st ∈ sts, ∀ id ≠ userId, ¬ st.WritesUser id)
    (hsessions : ∀ st ∈ sts, ∀ id row, row.userId ≠ userId → t.sessions.get id = some row →
      ¬ st.WritesSession id row) : Untouched t (execute sts t).tables userId where
  users _ _ hid hget := execute_user_kept hget fun st hst => husers st hst _ hid
  sessions _ _ hrow hget := execute_session_kept hget fun st hst => hsessions st hst _ _ hrow hget

/-- The middleware touches the session it attaches, and no other. -/
theorem Loaded.untouched {t t' : Tables} {request : Request} {now : Datetime} {s : Snapshot}
    (h : Loaded prim t request now t' (.ok (some s))) : Untouched t t' s.userId := by
  cases h with
  | anonymous nobody => exact absurd rfl (nobody s)
  | expired nobody => exact absurd rfl (nobody s)
  | @live _ id session touch attached token found hash tables =>
    obtain ⟨hid, hsession, -⟩ := attached s rfl
    rw [tables]
    apply untouched_execute
    · intro st hst
      cases touch with
      | false => cases hst
      | true =>
        rw [List.mem_singleton.mp hst]
        exact fun _ _ h => h
    · intro st hst id' row hrow hget
      cases touch with
      | false => cases hst
      | true =>
        rw [List.mem_singleton.mp hst]
        rintro rfl
        obtain rfl := Option.some.inj (hget.symm.trans found)
        rw [← hsession] at hrow
        exact hrow rfl

theorem Effect.untouched {t : Tables} {p : Pending} {form : Form} {input : Input}
    {sts : List Statement} {s : Snapshot}
    (heff : Effect prim t p.request p.snapshot form input p.handler sts)
    (hentered : p.entered = true) (hs : p.snapshot = some s) (hmember : s.user.role = .member)
    (hreset : ¬ CarriesResetToken prim t p form input)
    (howns : ∀ row, p.handler = .logout → Authorized p.request p.snapshot form s →
      t.sessions.get s.sessionId = some row → row.userId = s.userId) :
    Untouched t (execute sts t).tables s.userId := by
  have hguard := p.passed hentered
  unfold CarriesResetToken at hreset
  generalize p.handler = handler at heff hguard howns hreset
  have own : ∀ {s' : Snapshot}, Authorized p.request p.snapshot form s' → s' = s :=
    fun auth => Option.some.inj (auth.loaded.symm.trans hs)
  cases heff with
  | nothing => exact .refl t s.userId
  | logout s' auth e =>
    obtain rfl := own auth
    apply untouched_execute
    · simp [Statement.WritesUser]
    · intro st hst id row hrow hget
      simp only [List.mem_cons, List.not_mem_nil, or_false] at hst
      rcases hst with rfl | rfl
      · rintro rfl
        exact hrow (howns row rfl auth hget)
      · exact fun h => h
  | reset uid resets passwordHash e =>
    exact absurd ⟨rfl, uid, _, resets.submitted, resets.consumed⟩ hreset
  | passwordChange s' auth changes passwordHash e =>
    obtain rfl := own auth
    apply untouched_execute
    · simp [Statement.WritesUser]
    · intro st hst id row hrow hget
      simp only [List.mem_cons, List.not_mem_nil, or_false] at hst
      rcases hst with rfl | rfl | rfl
      · exact fun h => h
      · exact fun h => hrow (Nat.cast_injective h.1)
      · exact fun h => h
  | sessionRevokeOthers s' auth e =>
    obtain rfl := own auth
    apply untouched_execute
    · simp [Statement.WritesUser]
    · intro st hst id row hrow hget
      simp only [List.mem_cons, List.not_mem_nil, or_false] at hst
      rcases hst with rfl | rfl
      · exact fun h => hrow (Nat.cast_injective h.1)
      · exact fun h => h
  | sessionRevoke s' auth found hown e =>
    obtain rfl := own auth
    apply untouched_execute
    · simp [Statement.WritesUser]
    · intro st hst id row hrow hget
      simp only [List.mem_cons, List.not_mem_nil, or_false] at hst
      rcases hst with rfl | rfl
      · rintro rfl
        obtain rfl := Option.some.inj (hget.symm.trans found)
        exact hrow hown
      · exact fun h => h
  | userDeactivate s' auth =>
    -- the guard lets administrators through
    obtain ⟨s'', hs'', hadmin⟩ := requireAdmin_eq_none hguard
    obtain rfl := Option.some.inj (hs''.symm.trans hs)
    rw [hmember] at hadmin
    cases hadmin
  | configured s' given auth st acts configures =>
    apply untouched_execute
    · intro st' hst'
      obtain rfl := List.mem_singleton.mp hst'
      cases st' <;> first | exact fun _ _ h => h | exact configures.elim
    · intro st' hst' id row _ _
      obtain rfl := List.mem_singleton.mp hst'
      cases st' <;> first | exact fun h => h | exact configures.elim
  | _ =>
    apply untouched_execute
    · simp [Statement.WritesUser]
    · simp [Statement.WritesSession]

theorem isolated_step {σ : State} {a : Action} (howns : OwnsId σ a) :
    Isolated prim allowSignup σ a := by
  cases a with
  | arrive i handler request now =>
    intro s hload _
    unfold step
    simp only
    split
    · exact .refl _ _
    · have h := load_loaded prim σ.tables request now
      rw [hload] at h
      exact h.untouched
  | resume i form input =>
    intro p s hp hs hmember hreset
    rw [(step_resume_pending hp).2]
    exact (plan_effect _ _ _ _ _ _).untouched (State.suspended_eq_some.mp hp).2 hs hmember hreset
      fun row hlogout auth hget => howns p s row hp hlogout auth hmember hget
  | _ => exact trivial

/-- A logout that finds another user's session under its id deletes it. -/
theorem ownsId_of_isolated {σ : State} {a : Action} (h : Isolated prim allowSignup σ a) :
    OwnsId σ a := by
  cases a with
  | resume i form input =>
    intro p s row hp hlogout hauth hmember hget
    by_contra hother
    have hreset : ¬ CarriesResetToken prim σ.tables p form input := by
      rintro ⟨hhandler, -⟩
      rw [hlogout] at hhandler
      cases hhandler
    have hkept := (h p s hp hauth.loaded hmember hreset).sessions s.sessionId row hother hget
    rw [(step_resume_pending hp).2, plan, hlogout] at hkept
    simp only [handleLogout, requireCsrf, hauth.loaded, hauth.csrf] at hkept
    rw [execute_deleteSession ?_] at hkept
    · cases hkept
    · intro st hst
      rw [List.mem_singleton.mp hst]
      exact ⟨nofun, nofun⟩
  | _ => exact trivial

/-- In a run, no request that is authenticated as a member, but for a reset with a valid
    token, changes another user's row, or changes or deletes another user's session, exactly
    when no member's logout finds another user's session under its id. -/
theorem accounts_isolated_iff (σ : State) (actions : List Action) :
    Along (step prim allowSignup) (Isolated prim allowSignup) σ actions ↔
      Along (step prim allowSignup) OwnsId σ actions :=
  Along.congr (fun _ _ => ⟨ownsId_of_isolated, isolated_step⟩) σ actions

end Isolation

/-! ## An id that is given out again -/

/-- A member's request, other than a reset, changes or deletes another user's session. -/
def State.intrudes (prim : Primitives) (allowSignup : Bool) (σ : State) (i : Nat) (form : Form)
    (input : Input) : Bool :=
  (σ.suspended i).any fun p => p.handler != .resetPassword && p.snapshot.any fun s =>
    s.user.role == .member && σ.tables.sessions.rows.any fun r => r.2.userId != s.userId &&
      (step prim allowSignup σ (.resume i form input)).tables.sessions.get r.1 != some r.2

theorem not_isolated {prim : Primitives} {allowSignup : Bool} {σ : State} {i : Nat} {form : Form}
    {input : Input} (h : σ.intrudes prim allowSignup i form input = true) :
    ¬ Isolated prim allowSignup σ (.resume i form input) := by
  unfold State.intrudes at h
  simp only [Option.any_eq_true, Bool.and_eq_true, bne_iff_ne, beq_iff_eq, List.any_eq_true] at h
  obtain ⟨p, hp, hhandler, s, hs, hmember, ⟨id, row⟩, hrow, hother, hchanged⟩ := h
  intro hisolated
  have hun := hisolated p s hp hs hmember fun hreset => hhandler hreset.1
  exact hchanged (hun.sessions id row hother (Sqlite.Table.get_eq_some.mpr hrow))

/-- Ann and Bob sign up. -/
def twoAccounts : List Action :=
  Action.whole 0 .signup (.withToken "") (.ofFields [("email", "ann@example.com"),
    ("password", "a long password"), ("password_confirm", "a long password")])
    (.drawing "s1") ++
  Action.whole 0 .signup (.withToken "") (.ofFields [("email", "bob@example.com"),
    ("password", "another password"), ("password_confirm", "another password")])
    (.drawing "s2")

/-- Bob logs out twice at once. Once the first is through, Ann logs in, and gets the id of
    Bob's session; the second deletes hers. -/
theorem other_session_deleted :
    ¬ Along (step .plain true) (Isolated .plain true) { tables := {} } (twoAccounts ++
      [.arrive 1 .logout (.withToken "s2") .epoch, .enter 1 .epoch] ++
      Action.whole 2 .logout (.withToken "s2") (.ofFields [("csrf_token", "s2")]) {} ++
      Action.whole 0 .login (.withToken "") (.ofFields [("email", "ann@example.com"),
        ("password", "a long password")]) (.drawing "s3") ++
      [.resume 1 (.ofFields [("csrf_token", "s2")]) {}]) := by
  intro h
  obtain ⟨-, -, -, -, -, -, -, -, -, -, -, -, -, -, hlast, -⟩ : Along _ _ _ (_ :: _) := h
  exact not_isolated (by decide +kernel) hlast

end console
end HookGuard
