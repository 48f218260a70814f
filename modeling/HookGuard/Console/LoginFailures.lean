import HookGuard.Console.SessionRows

/- Logins with the passwords they verify.

   `loginTraced` is `handle_login` with the hashes the password is verified against, in
   turn. A login that fails is answered the same page whatever the tables hold, and verifies
   one password; but of a deactivated account none, as
   `not user.active or not verify_password(...)` stops at the flag. -/
namespace HookGuard
open Py store auth

namespace console

section Login
variable (prim : Primitives) (t : Tables) (request : Request) (form : Form) (input : Input)
  (limiter : Limiter)

/-- The response of a login. -/
def loginResponse : Except Exc Answer :=
  let p := handleLogin prim t request form input limiter
  p.answered (execute p.statements t)

end Login

/-! ## Logins that fail -/

section Failures
variable {prim : Primitives} {t t' : Tables} {request request' : Request} {form : Form}
  {input input' : Input} {limiter limiter' : Limiter} {email password : Str}

/-- The login comes to its rejection: the address is unknown, the account deactivated, or
    the password wrong. -/
structure LoginFails (prim : Primitives) (t : Tables) (email password : Str) : Prop where
  found : bindError (.str email) = none
  dummy : t.userByEmail email = none →
    ∃ matched, prim.verifyPassword password prim.dummyHash = .ok matched
  user : ∀ id user, t.userByEmail email = some (id, user) →
    user.active = false ∨ prim.verifyPassword password user.passwordHash = .ok false

/-- The account of an address is deactivated. -/
def Deactivated (t : Tables) (email : Str) : Prop :=
  ∃ id user, t.userByEmail email = some (id, user) ∧ user.active = false

/-- A login that fails is recorded and rejected, and verifies one password unless the
    account is deactivated. -/
theorem authenticate_fails (h : LoginFails prim t email password) (nextPath : Str) :
    ∃ userId, (authenticate prim t request input email password nextPath).1 =
        { statements := [record request .loginFail email userId input]
          answer := .ok (loginRejected nextPath) } ∧
      (Deactivated t email →
        (authenticate prim t request input email password nextPath).2.length = 0) ∧
      (¬ Deactivated t email →
        (authenticate prim t request input email password nextPath).2.length = 1) := by
  unfold authenticate
  simp only [h.found]
  cases hfind : t.userByEmail email with
  | none =>
    obtain ⟨matched, hmatched⟩ := h.dummy hfind
    simp only [hmatched]
    refine ⟨none, rfl, ?_, fun _ => rfl⟩
    rintro ⟨id, user, hfound, -⟩
    rw [hfind] at hfound
    cases hfound
  | some found =>
    obtain ⟨id, user⟩ := found
    refine ⟨some id, ?_⟩
    by_cases hactive : user.active = false
    · simp only [hactive, if_true, true_and]
      exact ⟨fun _ => rfl, fun hnot => absurd ⟨id, user, hfind, hactive⟩ hnot⟩
    · have hwrong := (h.user id user hfind).resolve_left hactive
      simp only [hactive, hwrong]
      refine ⟨rfl, ?_, fun _ => rfl⟩
      rintro ⟨id', user', hfound, hinactive⟩
      rw [hfind] at hfound
      cases hfound
      exact absurd hinactive hactive

theorem answered_rejected (nextPath : Str) (userId : Option Int) (after : Limiter) :
    (({ statements := [record request .loginFail email userId input]
        answer := .ok (loginRejected nextPath)
        limiter := some after } : Plan).answered
      (execute [record request .loginFail email userId input] t)) =
      match [Value.str email, .str AuthEventKind.loginFail.text,
          .str request.clientIp].findSome? bindError with
      | some e => .error e
      | none => .ok (loginRejected nextPath) := by
  have hbind : (record request .loginFail email userId input).parameters.findSome? bindError =
      [Value.str email, .str AuthEventKind.loginFail.text,
        .str request.clientIp].findSome? bindError := by
    simp only [record, Statement.parameters]
    rw [List.findSome?_cons, bindError_unixMs]
  simp only [execute, Statement.refusal, hbind]
  generalize List.findSome? bindError _ = unbound
  cases unbound with
  | some e => rfl
  | none => rfl

/-- A login that fails within the limit: its answer, and how many passwords it verifies. -/
theorem loginTraced_fails {wait : Int} {after : Limiter}
    (hallowed : limiter.allow
      (request.clientIp ++ lit "|" ++ normalizeEmail prim (form.get (lit "email") []))
      input.limited = .ok ((true, wait), after))
    (h : LoginFails prim t (normalizeEmail prim (form.get (lit "email") []))
      (form.get (lit "password") [])) :
    loginResponse prim t request form input limiter =
      (match [Value.str (normalizeEmail prim (form.get (lit "email") [])),
          .str AuthEventKind.loginFail.text, .str request.clientIp].findSome? bindError with
      | some e => .error e
      | none => .ok (loginRejected (safeNext (form.get (lit "next") [])))) ∧
    (Deactivated t (normalizeEmail prim (form.get (lit "email") [])) →
      (loginTraced prim t request form input limiter).2.length = 0) ∧
    (¬ Deactivated t (normalizeEmail prim (form.get (lit "email") [])) →
      (loginTraced prim t request form input limiter).2.length = 1) := by
  obtain ⟨userId, hplan, hcounts⟩ := @authenticate_fails _ _ request
    input _ _ h (safeNext (form.get (lit "next") []))
  unfold loginResponse handleLogin loginTraced
  simp only [hallowed, hplan]
  exact ⟨answered_rejected _ _ _, hcounts⟩

/-- Two logins with one form that fail, each within the limit, are answered alike and verify
    as many passwords, exactly when the account is deactivated in both of the tables or in
    neither. -/
theorem failures_alike_iff {wait wait' : Int} {after after' : Limiter}
    (hip : request'.clientIp = request.clientIp)
    (hallowed : limiter.allow
      (request.clientIp ++ lit "|" ++ normalizeEmail prim (form.get (lit "email") []))
      input.limited = .ok ((true, wait), after))
    (hallowed' : limiter'.allow
      (request'.clientIp ++ lit "|" ++ normalizeEmail prim (form.get (lit "email") []))
      input'.limited = .ok ((true, wait'), after'))
    (hfails : LoginFails prim t (normalizeEmail prim (form.get (lit "email") []))
      (form.get (lit "password") []))
    (hfails' : LoginFails prim t' (normalizeEmail prim (form.get (lit "email") []))
      (form.get (lit "password") [])) :
    (loginResponse prim t request form input limiter =
        loginResponse prim t' request' form input' limiter' ∧
      (loginTraced prim t request form input limiter).2.length =
        (loginTraced prim t' request' form input' limiter').2.length) ↔
    (Deactivated t (normalizeEmail prim (form.get (lit "email") [])) ↔
      Deactivated t' (normalizeEmail prim (form.get (lit "email") []))) := by
  obtain ⟨hanswer, hnone, hone⟩ := loginTraced_fails hallowed hfails
  obtain ⟨hanswer', hnone', hone'⟩ := loginTraced_fails hallowed' hfails'
  rw [hanswer, hanswer', hip]
  simp only [true_and]
  by_cases hd : Deactivated t (normalizeEmail prim (form.get (lit "email") []))
  · by_cases hd' : Deactivated t' (normalizeEmail prim (form.get (lit "email") []))
    · rw [hnone hd, hnone' hd']
      simp only [hd, hd']
    · rw [hnone hd, hone' hd']
      simp [hd, hd']
  · by_cases hd' : Deactivated t' (normalizeEmail prim (form.get (lit "email") []))
    · rw [hone hd, hnone' hd']
      simp [hd, hd']
    · rw [hone hd, hone' hd']
      simp only [hd, hd']

end Failures

/-! ## One guess, and three tables -/

/-- A guess at her password. -/
def annGuess : Form :=
  .ofFields [("email", "ann@example.com"), ("password", "another password")]

theorem annGuess_fails (active : Bool) :
    LoginFails .plain (annTables active)
      (normalizeEmail .plain (annGuess.get (lit "email") []))
      (annGuess.get (lit "password") []) where
  found := by decide +kernel
  dummy := by cases active <;> exact fun h => absurd h (by decide +kernel)
  user id user hfind := by
    right
    cases active <;> cases hfind <;> decide +kernel

theorem annGuess_allowed :
    ∃ after, auth.loginLimiter.allow ((Request.withToken "").clientIp ++ lit "|" ++
        normalizeEmail .plain (annGuess.get (lit "email") [])) ({} : Input).limited =
      .ok ((true, 0), after) :=
  ⟨_, rfl⟩

theorem not_deactivated {t : Tables} {email : Str}
    (h : (t.userByEmail email).all (fun found => found.2.active) = true) :
    ¬ Deactivated t email := by
  rintro ⟨id, user, hfound, hinactive⟩
  rw [hfound, Option.all_some, hinactive] at h
  cases h

theorem failures_alike_unknown :
    loginResponse .plain (annTables true) (.withToken "") annGuess {} auth.loginLimiter =
        loginResponse .plain {} (.withToken "") annGuess {} auth.loginLimiter ∧
      (loginTraced .plain (annTables true) (.withToken "") annGuess {}
          auth.loginLimiter).2.length =
        (loginTraced .plain {} (.withToken "") annGuess {} auth.loginLimiter).2.length := by
  obtain ⟨after, hallowed⟩ := annGuess_allowed
  refine (failures_alike_iff rfl hallowed hallowed (annGuess_fails true) ?_).mpr ?_
  · exact ⟨by decide +kernel, fun _ => ⟨_, rfl⟩, nofun⟩
  · exact iff_of_false (not_deactivated (by decide +kernel)) (not_deactivated rfl)

/-- The guess fails within the limit whether her account is active or not, and is verified
    in the one case only. -/
theorem failures_differ :
    LoginFails .plain (annTables true) (normalizeEmail .plain (annGuess.get (lit "email") []))
        (annGuess.get (lit "password") []) ∧
      LoginFails .plain (annTables false)
        (normalizeEmail .plain (annGuess.get (lit "email") []))
        (annGuess.get (lit "password") []) ∧
      (∃ after, auth.loginLimiter.allow ((Request.withToken "").clientIp ++ lit "|" ++
        normalizeEmail .plain (annGuess.get (lit "email") [])) ({} : Input).limited =
          .ok ((true, 0), after)) ∧
      ¬ (loginResponse .plain (annTables true) (.withToken "") annGuess {}
            auth.loginLimiter =
          loginResponse .plain (annTables false) (.withToken "") annGuess {}
            auth.loginLimiter ∧
        (loginTraced .plain (annTables true) (.withToken "") annGuess {}
            auth.loginLimiter).2.length =
          (loginTraced .plain (annTables false) (.withToken "") annGuess {}
            auth.loginLimiter).2.length) := by
  refine ⟨annGuess_fails true, annGuess_fails false, annGuess_allowed, ?_⟩
  rintro ⟨-, hlength⟩
  exact absurd hlength (by decide +kernel)

end console
end HookGuard
