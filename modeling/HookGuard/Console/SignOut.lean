import HookGuard.Console.LogTruth

/- A new password signs everybody else out, over whole runs (`handle_password_change`,
   `handle_reset_password`, `delete_sessions_for_user_except`).

   The statement that sets a password is followed by the one that ends the user's sessions,
   but for the session of a change; the second binds nothing that the first did not, so it
   is not refused where the first was executed (`execute_signs_out`). A session that is there
   at the end of a run has therefore been there since its last start, through every change of
   its user's password, and each of them was its own. -/
namespace HookGuard
open Py store auth Runs

namespace store

theorem execute_signs_out {uid : Int} {passwordHash : Str} {keep : Nat} {e : AuthEvent}
    {t : Tables} {t' : Tables}
    (h : t' = (execute [.updatePasswordHash uid passwordHash,
      .deleteSessionsForUserExcept uid keep, .insertAuthEvent e] t).tables) :
    t'.users = t.users ∨
      ∀ id row, t'.sessions.get id = some row → (row.userId : Int) = uid → id = keep := by
  rw [execute] at h
  cases hset : (Statement.updatePasswordHash uid passwordHash).refusal t with
  | some r =>
    rw [hset] at h
    rw [h]
    exact .inl rfl
  | none =>
    right
    -- both bind the user, so the second statement is executed as well
    have hbind : bindError (.int uid) = none := by
      unfold Statement.refusal at hset
      split at hset
      · cases hset
      · next hnone =>
        apply List.findSome?_eq_none_iff.mp hnone
        simp [Statement.parameters]
    have hended : ∀ t : Tables,
        (Statement.deleteSessionsForUserExcept uid keep).refusal t = none := by
      intro t
      simp [Statement.refusal, Statement.parameters, Statement.violation, hbind]
    rw [hset, execute, hended] at h
    have hsessions : t'.sessions = ((Statement.deleteSessionsForUserExcept uid keep).apply
        ((Statement.updatePasswordHash uid passwordHash).apply t)).sessions := by
      rw [h, execute]
      simp only
      split <;> rfl
    have hdone : Statement.Done t t' (.deleteSessionsForUserExcept uid keep) :=
      done_deleteSessionsForUserExcept hsessions
    exact hdone

end store

namespace console

/-- The step is a password change that this session has asked for, under the password its
    user had. -/
def ChangesOwn (prim : Primitives) (σ : State) (id userId : Nat) : Action → Prop
  | .resume i form _ => ∃ p s, σ.suspended i = some p ∧ p.handler = .passwordChange ∧
      Authorized p.request p.snapshot form s ∧ ChangesPassword prim s form ∧
      s.userId = userId ∧ s.sessionId = id
  | _ => False

section Steps
variable {prim : Primitives} {allowSignup : Bool} {σ σ' : State} {a : Action} {id uid : Nat}
  {user user' : User} {row : Session}

/-- A handler that sets a user's password leaves no session of the user but its own. -/
theorem Effect.signs_out {t : Tables} {request : Request} {snapshot : Option Snapshot}
    {form : Form} {input : Input} {h : Handler} {sts : List Statement}
    (heff : Effect prim t request snapshot form input h sts) (hmem : ∃ passwordHash,
      .updatePasswordHash uid passwordHash ∈ sts)
    (husers : (execute sts t).tables.users ≠ t.users)
    (hget : (execute sts t).tables.sessions.get id = some row) (hown : row.userId = uid) :
    h = .passwordChange ∧ ∃ s, Authorized request snapshot form s ∧
      ChangesPassword prim s form ∧ s.userId = uid ∧ s.sessionId = id := by
  obtain ⟨passwordHash, hmem⟩ := hmem
  cases heff with
  | passwordChange s auth changes passwordHash' e =>
    obtain rfl : s.userId = uid := by simp at hmem; omega
    rcases execute_signs_out rfl with hsame | hended
    · exact absurd hsame husers
    · exact ⟨rfl, s, auth, changes, rfl, (hended id row hget (by rw [hown])).symm⟩
  | reset uid' resets passwordHash' e =>
    obtain rfl : uid' = uid := by simp at hmem; omega
    -- the token is burnt first, which leaves the users
    rw [execute] at husers hget
    cases hdelete : (Statement.deleteSetting (resetKey uid)).refusal t with
    | some r =>
      rw [hdelete] at husers
      exact absurd rfl husers
    | none =>
      rw [hdelete] at husers hget
      rcases execute_signs_out rfl with hsame | hended
      · exact absurd hsame husers
      · -- an id is positive
        have hzero := hended id row hget (by rw [hown])
        have hpositive := Sqlite.Table.positive _ _ (Sqlite.Table.get_eq_some.mp hget)
        simp only at hpositive
        omega
  | configured s given auth st acts configures =>
    rw [← List.mem_singleton.mp hmem] at configures
    exact configures.elim
  | _ => simp at hmem

theorem Stepped.signs_out (h : Stepped prim σ a σ')
    (hbefore : σ.tables.users.get uid = some user)
    (hafter : σ'.tables.users.get uid = some user')
    (hchanged : user'.passwordHash ≠ user.passwordHash)
    (hget : σ'.tables.sessions.get id = some row) (hown : row.userId = uid) :
    ChangesOwn prim σ id uid a := by
  obtain ⟨sts, htables, hsts⟩ := h.statements
  rw [htables] at hafter hget
  have hmem : .updatePasswordHash uid user'.passwordHash ∈ sts := by
    cases execute_user_origin hafter with
    | created new created hash => cases hbefore.symm.trans new
    | kept was email role hash =>
      obtain rfl := Option.some.inj (hbefore.symm.trans was)
      exact hash.resolve_left hchanged
  have husers : (execute sts σ.tables).tables.users ≠ σ.tables.users := by
    intro hsame
    rw [hsame, hbefore] at hafter
    exact hchanged (congrArg User.passwordHash (Option.some.inj hafter.symm))
  rcases hsts with hserves | ⟨i, form, input, p, rfl, hp, rfl⟩
  · exact (hserves _ hmem).elim
  · obtain ⟨hhandler, s, hs⟩ :=
      (plan_effect prim σ.tables σ.loginLimiter p form input).signs_out ⟨_, hmem⟩ husers hget hown
    exact ⟨p, s, hp, hhandler, hs⟩

end Steps

/-! ## Over whole runs -/

/-- Bob logs in once more, and changes his password. -/
def bobChanges : List Action :=
  twoAdministrators ++
  Action.whole 0 .login (.withToken "") (.ofFields [("email", "bob@example.com"),
    ("password", "another password")]) (.drawing "s3") ++
  Action.whole 0 .passwordChange (.withToken "s3") (.ofFields [("csrf_token", "s3"),
    ("current_password", "another password"), ("new_password", "bob's new password"),
    ("new_password_confirm", "bob's new password")]) {}

end console
end HookGuard
