import HookGuard.Console.LoginFailures
import HookGuard.Console.RateLimit
import HookGuard.Lib.Runs

/- How often passwords are guessed at, over runs of the Console.

   The limiter counts under the client's address and the normalized email, while a user is
   found by an email up to the case of ASCII letters (an address with a U+0000 apart, of which
   the lookup compares no more than what stands before it). As `str.lower` leaves no capital
   among those, two emails that find one user are one key (`attempts_email`): so of the guesses
   from an address at a user, no window holds more than the limit lets through. -/
namespace HookGuard
open Py store auth Runs SlidingWindow

namespace console

/-- A password that is verified against a user's hash. -/
structure Attempt where
  time : Datetime
  clientIp : Str
  email : Str
  userId : Nat

section Runs
variable (prim : Primitives)

/-- The attempts of a step: those of a login that goes on. -/
def attempts (σ : State) : Action → List Attempt
  | .resume i form input =>
    match σ.suspended i with
    | none => []
    | some p =>
      if p.handler = .login then
        (loginTraced prim σ.tables p.request form input σ.loginLimiter).2.filterMap fun
          | .dummy => none
          | .user id => some ⟨input.limited, p.request.clientIp,
            normalizeEmail prim (form.get (lit "email") []), id⟩
      else []
  | _ => []

/-- The calls of the login limiter in a step. -/
def loginCalls (σ : State) : Action → List Call
  | .resume i form input =>
    match σ.suspended i with
    | none => []
    | some p =>
      if p.handler = .login then
        [.allow (p.request.clientIp ++ lit "|" ++
          normalizeEmail prim (form.get (lit "email") [])) input.limited]
      else []
  | .prune now => [.prune now]
  | _ => []

end Runs

/-! ## The limiter of a plan -/

/-- The plan does not ask the login limiter. -/
def Unasking (p : Plan) : Prop := p.limiter = none

section Plans
variable {prim : Primitives} {t : Tables} {request : Request} {snapshot : Option Snapshot}
  {form : Form} {input : Input} {limiter : Limiter}

theorem requireCsrf_unasking {rest : Snapshot → Plan} (h : ∀ s, Unasking (rest s)) :
    Unasking (requireCsrf request snapshot form rest) :=
  requireCsrf_induction (fun _ => rfl) fun s _ _ => h s

theorem lookUp_unasking {v : Value} {rest : Plan} (h : Unasking rest) :
    Unasking (Plan.lookUp v rest) :=
  Plan.lookUp_induction (fun _ => rfl) h

theorem withSession_unasking {userId : Nat} {sts : List Statement} {location : Str} :
    Unasking (withSession prim request userId input sts location) := by
  unfold withSession
  split <;> rfl

theorem handleSignup_unasking : Unasking (handleSignup prim t request form input) := by
  unfold handleSignup
  simp only
  split
  · rfl
  · split
    · rfl
    · apply lookUp_unasking
      split
      · rfl
      · split
        · rfl
        · exact withSession_unasking

theorem handleResetPassword_unasking :
    Unasking (handleResetPassword prim t request form input) := by
  unfold handleResetPassword
  split
  · rfl
  · split
    · rfl
    · rfl
    · unfold resetPassword
      simp only
      split
      · rfl
      · split
        · rfl
        · split <;> rfl

theorem handlePasswordChange_unasking :
    Unasking (handlePasswordChange prim request snapshot form input) := by
  apply requireCsrf_unasking
  intro s
  simp only
  split
  · rfl
  · rfl
  · split
    · rfl
    · split
      · rfl
      · split <;> rfl

theorem handleRetentionChange_unasking :
    Unasking (handleRetentionChange request snapshot form) := by
  apply requireCsrf_unasking
  intro s
  split
  · rfl
  · split <;> rfl

theorem handleUserCreate_unasking :
    Unasking (handleUserCreate prim t request snapshot form input) := by
  apply requireCsrf_unasking
  intro s
  simp only
  split
  · rfl
  · split
    · rfl
    · split
      · rfl
      · split <;> rfl

theorem handleUserDeactivate_unasking {target : Nat} :
    Unasking (handleUserDeactivate t request snapshot form target) := by
  apply requireCsrf_unasking
  intro s
  apply lookUp_unasking
  split
  · rfl
  · split <;> rfl

theorem handleEndpointUpdate_unasking {id : Nat} :
    Unasking (handleEndpointUpdate prim t request snapshot form input id) := by
  apply requireCsrf_unasking
  intro s
  apply lookUp_unasking
  split
  · rfl
  · split <;> rfl

theorem handleEndpointToggleActive_unasking {id : Nat} :
    Unasking (handleEndpointToggleActive t request snapshot form input id) := by
  apply requireCsrf_unasking
  intro s
  apply lookUp_unasking
  split <;> rfl

/-- No handler but that of the login asks the login limiter. -/
theorem plan_unasking {p : Pending} (h : p.handler ≠ .login) :
    Unasking (plan prim t limiter p form input) := by
  obtain ⟨handler, request, snapshot, entered, passed⟩ := p
  cases handler with
  | login => exact absurd rfl h
  | signup => exact handleSignup_unasking
  | logout => exact requireCsrf_unasking fun s => rfl
  | resetPassword => exact handleResetPassword_unasking
  | passwordChange => exact handlePasswordChange_unasking
  | sessionRevoke target =>
    apply requireCsrf_unasking
    intro s
    split <;> rfl
  | sessionRevokeOthers => exact requireCsrf_unasking fun s => rfl
  | retentionChange => exact handleRetentionChange_unasking
  | userCreate => exact handleUserCreate_unasking
  | userDeactivate target => exact handleUserDeactivate_unasking
  | endpointCreate =>
    apply requireCsrf_unasking
    intro s
    split <;> rfl
  | endpointUpdate id => exact handleEndpointUpdate_unasking
  | endpointDelete id post => exact requireCsrf_unasking fun s => rfl
  | endpointToggleActive id => exact handleEndpointToggleActive_unasking
  | view => rfl

end Plans

/-! ## What an attempt has met -/

section Attempts
variable {prim : Primitives} {allowSignup : Bool} {σ : State} {a : Action} {b : Attempt}

/-- The limiter let the login of an attempt through, and its email found the user. -/
structure Attempt.Made (prim : Primitives) (σ : State) (a : Action) (b : Attempt) : Prop where
  calls : loginCalls prim σ a = [.allow (b.clientIp ++ lit "|" ++ b.email) b.time]
  granted : ∃ wait after,
    σ.loginLimiter.allow (b.clientIp ++ lit "|" ++ b.email) b.time = .ok ((true, wait), after)
  found : ∃ user, σ.tables.userByEmail b.email = some (b.userId, user)
  sole : attempts prim σ a = [b]
  normal : ∃ text, b.email = normalizeEmail prim text

theorem authenticate_user {t : Tables} {request : Request} {input : Input}
    {email password nextPath : Str} {id : Nat}
    (h : .user id ∈ (authenticate prim t request input email password nextPath).2) :
    (authenticate prim t request input email password nextPath).2 = [.user id] ∧
      ∃ user, t.userByEmail email = some (id, user) := by
  unfold authenticate at h ⊢
  split at h
  · cases h
  · simp only
    cases hfind : t.userByEmail email with
    | none =>
      simp only [hfind] at h
      split at h
      · cases List.mem_singleton.mp h
      · cases List.mem_singleton.mp h
    | some found =>
      obtain ⟨id', user⟩ := found
      simp only [hfind] at h ⊢
      split at h
      · cases h
      · next hactive =>
        simp only [hactive] at h ⊢
        generalize prim.verifyPassword password user.passwordHash = matched at h ⊢
        cases matched with
        | error e =>
          cases List.mem_singleton.mp h
          exact ⟨rfl, user, rfl⟩
        | ok matched =>
          cases matched <;> cases List.mem_singleton.mp h <;> exact ⟨rfl, user, rfl⟩

theorem loginTraced_user {t : Tables} {request : Request} {form : Form} {input : Input}
    {limiter : Limiter} {id : Nat}
    (h : .user id ∈ (loginTraced prim t request form input limiter).2) :
    (loginTraced prim t request form input limiter).2 = [.user id] ∧
      (∃ wait after, limiter.allow (request.clientIp ++ lit "|" ++
        normalizeEmail prim (form.get (lit "email") [])) input.limited =
          .ok ((true, wait), after)) ∧
      ∃ user, t.userByEmail (normalizeEmail prim (form.get (lit "email") [])) =
        some (id, user) := by
  unfold loginTraced at h ⊢
  simp only at h ⊢
  generalize limiter.allow _ _ = granted at h ⊢
  cases granted with
  | error e => cases h
  | ok granted =>
    obtain ⟨⟨allowed, wait⟩, after⟩ := granted
    cases allowed with
    | false => cases h
    | true =>
      obtain ⟨hsole, hfound⟩ := authenticate_user h
      exact ⟨hsole, ⟨wait, after, rfl⟩, hfound⟩

theorem attempt_made (h : b ∈ attempts prim σ a) : b.Made prim σ a := by
  cases a with
  | resume i form input =>
    unfold attempts at h
    cases hp : σ.suspended i with
    | none =>
      simp only [hp] at h
      cases h
    | some p =>
      by_cases hlogin : p.handler = .login
      · simp only [hp, hlogin, if_true] at h
        obtain ⟨verified, hverified, hb⟩ := List.mem_filterMap.mp h
        cases verified with
        | dummy => cases hb
        | user id =>
          obtain rfl := Option.some.inj hb
          obtain ⟨hsole, hgranted, hfound⟩ := loginTraced_user hverified
          refine ⟨?_, hgranted, hfound, ?_, _, rfl⟩
          · simp only [loginCalls, hp, hlogin, if_true]
          · simp only [attempts, hp, hlogin, if_true, hsole]
            rfl
      · simp only [hp, hlogin, if_false] at h
        cases h
  | _ => cases h

/-! ## The limiter and its grants along a run -/

theorem step_loginLimiter {r : Limited} (hr : r.limiter = σ.loginLimiter) :
    (r.calls (loginCalls prim σ a)).limiter = (step prim allowSignup σ a).loginLimiter := by
  cases a with
  | arrive i handler request now =>
    unfold step
    simp only
    split
    · exact hr
    · exact hr
  | enter i now =>
    unfold step
    simp only
    split
    · split
      · exact hr
      · unfold State.enter
        simp only
        split
        · exact hr
        · exact hr
    · exact hr
  | resume i form input =>
    cases hp : σ.suspended i with
    | none =>
      simp only [step, loginCalls, hp]
      exact hr
    | some p =>
      have hlimiter : (step prim allowSignup σ (.resume i form input)).loginLimiter =
          (plan prim σ.tables σ.loginLimiter p form input).limiter.getD σ.loginLimiter := by
        simp only [step, hp]
        rfl
      rw [hlimiter]
      simp only [loginCalls, hp]
      by_cases hlogin : p.handler = .login
      · have hplan : plan prim σ.tables σ.loginLimiter p form input =
            handleLogin prim σ.tables p.request form input σ.loginLimiter := by
          simp only [plan, hlogin]
        simp only [hplan, hlogin, if_true, Limited.calls, List.foldl_cons, List.foldl_nil,
          Limited.call, hr, handleLogin, loginTraced]
        generalize σ.loginLimiter.allow _ _ = granted
        cases granted with
        | error e => rfl
        | ok granted =>
          obtain ⟨⟨allowed, wait⟩, after⟩ := granted
          cases allowed <;> rfl
      · have hnone : (plan prim σ.tables σ.loginLimiter p form input).limiter = none :=
          plan_unasking hlogin
        rw [hnone, if_neg hlogin]
        exact hr
  | abandon i => exact hr
  | mint email token now => exact hr
  | prune now =>
    show (r.limiter.prune now).toOption.getD r.limiter = _
    rw [hr]
    rfl

/-- The times of the attempts from an address with an email. -/
def timesOf (ip email : Str) (bs : List Attempt) : List Int :=
  (bs.filter fun b => b.clientIp = ip ∧ b.email = email).map fun b => b.time.us

theorem timesOf_append (ip email : Str) (bs bs' : List Attempt) :
    timesOf ip email (bs ++ bs') = timesOf ip email bs ++ timesOf ip email bs' := by
  simp [timesOf]

theorem grantsOf_call (r : Limited) (c : Call) (key : Str) :
    (grantsOf r.grants key).Sublist (grantsOf (r.call c).grants key) := by
  have hgrows : r.grants.Sublist (r.call c).grants := by
    cases c with
    | prune now => exact List.Sublist.refl _
    | allow key' now =>
      simp only [Limited.call]
      cases r.limiter.allow key' now with
      | error e => exact List.Sublist.refl _
      | ok granted =>
        obtain ⟨⟨allowed, wait⟩, after⟩ := granted
        cases allowed with
        | false => exact List.Sublist.refl _
        | true => exact List.sublist_append_left _ _
  exact (hgrows.filter _).map _

theorem grantsOf_calls (r : Limited) (cs : List Call) (key : Str) :
    (grantsOf r.grants key).Sublist (grantsOf (r.calls cs).grants key) := by
  induction cs generalizing r with
  | nil => exact List.Sublist.refl _
  | cons c cs ih => exact (grantsOf_call r c key).trans (ih (r.call c))

/-- The attempts of a step are grants of their key. -/
theorem attempts_granted {r : Limited} (hr : r.limiter = σ.loginLimiter) (ip email : Str) :
    (grantsOf r.grants (ip ++ lit "|" ++ email) ++
        timesOf ip email (attempts prim σ a)).Sublist
      (grantsOf (r.calls (loginCalls prim σ a)).grants (ip ++ lit "|" ++ email)) := by
  have hgrows := grantsOf_calls r (loginCalls prim σ a) (ip ++ lit "|" ++ email)
  cases hattempts : attempts prim σ a with
  | nil => simpa [timesOf] using hgrows
  | cons b bs =>
    have hmade : b.Made prim σ a := attempt_made (hattempts ▸ List.mem_cons_self)
    rw [← hattempts, hmade.sole]
    by_cases hkey : b.clientIp = ip ∧ b.email = email
    · obtain ⟨rfl, rfl⟩ := hkey
      obtain ⟨wait, after, hgranted⟩ := hmade.granted
      rw [hmade.calls]
      simp only [Limited.calls, List.foldl_cons, List.foldl_nil, Limited.call, hr, hgranted,
        if_true, grantsOf_append, grantsOf_own]
      simp [timesOf]
    · have hnone : timesOf ip email [b] = [] := by simp [timesOf, hkey]
      rw [hnone, List.append_nil]
      exact hgrows

theorem collect_granted {r : Limited} {actions : List Action}
    (hr : r.limiter = σ.loginLimiter) (ip email : Str) :
    (grantsOf r.grants (ip ++ lit "|" ++ email) ++ timesOf ip email
        (collect (step prim allowSignup) (attempts prim) σ actions)).Sublist
      (grantsOf (r.calls (collect (step prim allowSignup) (loginCalls prim) σ actions)).grants
        (ip ++ lit "|" ++ email)) := by
  induction actions generalizing σ r with
  | nil => simp [collect, timesOf, Limited.calls]
  | cons a actions ih =>
    have hstep := @attempts_granted prim σ a r hr ip email
    have hrest := ih (@step_loginLimiter prim allowSignup σ a r hr)
    have hcalls : r.calls (collect (step prim allowSignup) (loginCalls prim) σ (a :: actions)) =
        (r.calls (loginCalls prim σ a)).calls
          (collect (step prim allowSignup) (loginCalls prim) (step prim allowSignup σ a)
            actions) := List.foldl_append
    rw [hcalls, collect, timesOf_append, ← List.append_assoc]
    exact (hstep.append_right _).trans hrest

/-! ## The emails of attempts at one user -/

theorem lower_eq_self {s : Str} (h : ∀ c ∈ s, ¬ (65 ≤ c ∧ c ≤ 90)) : s.map asciiLower = s := by
  calc s.map asciiLower = s.map id := by
        apply List.map_congr_left
        intro c hc
        rw [asciiLower, if_neg (h c hc), id]
    _ = s := List.map_id s

theorem email_persists {id : Nat} {user : User} (actions : List Action)
    (hget : σ.tables.users.get id = some user) :
    ∃ user', (actions.foldl (step prim allowSignup) σ).tables.users.get id = some user' ∧
      user'.email = user.email := by
  induction actions generalizing σ user with
  | nil => exact ⟨user, hget, rfl⟩
  | cons a actions ih =>
    obtain ⟨user', hget', hemail, -⟩ := (step_stepped prim allowSignup σ a).user_persists hget
    obtain ⟨last, hlast, hsame⟩ := ih hget'
    exact ⟨last, hlast, hsame.trans hemail⟩

theorem attempts_find {actions : List Action}
    (h : b ∈ collect (step prim allowSignup) (attempts prim) σ actions) :
    (∃ text, b.email = normalizeEmail prim text) ∧
      ∃ user, (actions.foldl (step prim allowSignup) σ).tables.users.get b.userId = some user ∧
        sameNocase user.email b.email = true := by
  induction actions generalizing σ with
  | nil => cases h
  | cons a actions ih =>
    rcases List.mem_append.mp h with h | h
    · have hmade := attempt_made h
      obtain ⟨user, hfound⟩ := hmade.found
      obtain ⟨hget, hsame⟩ := Sqlite.Table.find_eq_some hfound
      -- the user has this address to the end
      obtain ⟨last, hlast, hemail⟩ := @email_persists prim allowSignup σ _ user (a :: actions) hget
      exact ⟨hmade.normal, last, hlast, by rw [hemail]; exact hsame⟩
    · exact ih h

/-- All attempts at a user that is found by its address up to ASCII case are made with one
    email. -/
theorem attempts_email (hlower : ∀ s, ∀ c ∈ prim.lower s, ¬ (65 ≤ c ∧ c ≤ 90))
    {actions : List Action} {id : Nat}
    (hlookup : ∀ user email,
      (actions.foldl (step prim allowSignup) σ).tables.users.get id = some user →
        sameNocase user.email email = true → user.email.map asciiLower = email.map asciiLower) :
    ∀ b ∈ collect (step prim allowSignup) (attempts prim) σ actions,
      ∀ b' ∈ collect (step prim allowSignup) (attempts prim) σ actions,
        b.userId = id → b'.userId = id → b.email = b'.email := by
  intro b hb b' hb' hid hid'
  obtain ⟨⟨text, htext⟩, user, hget, hsame⟩ := attempts_find hb
  obtain ⟨⟨text', htext'⟩, user', hget', hsame'⟩ := attempts_find hb'
  rw [hid] at hget
  rw [hid', hget] at hget'
  obtain rfl := Option.some.inj hget'
  have hfolded := hlookup user b.email hget hsame
  have hfolded' := hlookup user b'.email hget hsame'
  rw [lower_eq_self (s := b.email) (by rw [htext]; exact hlower _)] at hfolded
  rw [lower_eq_self (s := b'.email) (by rw [htext']; exact hlower _)] at hfolded'
  exact hfolded.symm.trans hfolded'

/-- The attempts at a user in a window are times of one email. -/
theorem length_window_le {bs : List Attempt} {b : Attempt}
    (hemails : ∀ b' ∈ bs, b'.userId = b.userId → b'.email = b.email) (ip : Str)
    (since now : Int) :
    (bs.filter fun b' => b'.clientIp = ip ∧ b'.userId = b.userId ∧ since < b'.time.us ∧
        b'.time.us ≤ now).length ≤
      ((live since (timesOf ip b.email bs)).filter (· ≤ now)).length := by
  unfold live timesOf
  rw [List.filter_map, List.filter_map, List.length_map, List.filter_filter,
    List.filter_filter, ← List.countP_eq_length_filter, ← List.countP_eq_length_filter]
  apply List.countP_mono_left
  intro b' hb' hmine
  rw [decide_eq_true_eq] at hmine
  obtain ⟨hip, hid, hsince, hnow⟩ := hmine
  have hemail : b'.email = b.email := hemails b' hb' hid
  simp [hip, hemail, hsince, hnow]

/-- In every run at whose calls of the login limiter the time does not decrease, the password
    of a user, who is found by the address up to ASCII case, is tried no more than ten times
    from one client within a quarter of an hour. -/
theorem guesses_bounded (hlower : ∀ s, ∀ c ∈ prim.lower s, ¬ (65 ≤ c ∧ c ≤ 90)) (t : Tables)
    {actions : List Action}
    (hordered : Ordered
      (collect (step prim allowSignup) (loginCalls prim) { tables := t } actions))
    (ip : Str) (id : Nat)
    (hlookup : ∀ user email,
      (actions.foldl (step prim allowSignup) { tables := t }).tables.users.get id = some user →
        sameNocase user.email email = true → user.email.map asciiLower = email.map asciiLower)
    (now : Int) :
    ((collect (step prim allowSignup) (attempts prim) { tables := t } actions).filter fun b =>
      b.clientIp = ip ∧ b.userId = id ∧ now - 15 * 60 * 10 ^ 6 < b.time.us ∧
        b.time.us ≤ now).length ≤ 10 := by
  have hemails := attempts_email hlower hlookup
  have hgranted := @collect_granted prim allowSignup { tables := t }
    (fresh 10 (by decide) (15 * 60 * 10 ^ 6)) actions rfl ip
  have hrefines := refines_made (by decide : 0 < 10) (15 * 60 * 10 ^ 6) hordered
    (fun c _ => c.time.upper.le) (by decide)
  generalize collect (step prim allowSignup) (loginCalls prim) _ actions = cs at *
  generalize collect (step prim allowSignup) (attempts prim) _ actions = bs at *
  by_cases hmine : ∃ b ∈ bs, b.userId = id
  · obtain ⟨b, hb, rfl⟩ := hmine
    have hone : ∀ b' ∈ bs, b'.userId = b.userId → b'.email = b.email :=
      fun b' hb' hid => hemails b' hb' b hb hid rfl
    have hsub : (timesOf ip b.email bs).Sublist _ := hgranted b.email
    calc (bs.filter _).length
        ≤ ((live (now - 15 * 60 * 10 ^ 6) (timesOf ip b.email bs)).filter (· ≤ now)).length :=
          length_window_le hone ip _ now
      _ ≤ _ := ((hsub.filter _).filter _).length_le
      _ ≤ 10 := by
        rw [show (fresh 10 _ _).calls cs = @made 10 (by decide) _ cs from rfl,
          hrefines.grants]
        exact hrefines.bounded _ now
  · have hnone : bs.filter (fun b => b.clientIp = ip ∧ b.userId = id ∧
        now - 15 * 60 * 10 ^ 6 < b.time.us ∧ b.time.us ≤ now) = [] := by
      rw [List.filter_eq_nil_iff]
      intro b hb h
      rw [decide_eq_true_eq] at h
      exact hmine ⟨b, hb, h.2.1⟩
    rw [hnone]
    exact Nat.zero_le _

end Attempts

/-! ## Guesses written out -/

theorem plain_lower : ∀ s, ∀ c ∈ Primitives.plain.lower s, ¬ (65 ≤ c ∧ c ≤ 90) := by
  intro s c hc
  obtain ⟨c', -, rfl⟩ := List.mem_map.mp hc
  split
  · omega
  · assumption

/-- Ann's password is guessed at under two spellings of her address, with a prune between. -/
def twoGuesses : List Action :=
  Action.whole 0 .login (.withToken "") annGuess {} ++ .prune .epoch ::
    Action.whole 0 .login (.withToken "") (.ofFields [("email", " ANN@example.com"),
      ("password", "a guess")]) {}

example : ((collect (step .plain false) (attempts .plain) { tables := annTables true }
    twoGuesses).map Attempt.userId) = [1, 1] := by decide +kernel

theorem twoGuesses_lookup : ∀ user email,
    (twoGuesses.foldl (step .plain false) { tables := annTables true }).tables.users.get 1 =
      some user → sameNocase user.email email = true →
        user.email.map asciiLower = email.map asciiLower := by
  intro user email hget hsame
  have hemail : ((twoGuesses.foldl (step .plain false)
      { tables := annTables true }).tables.users.get 1).map User.email =
        some (lit "ann@example.com") := by decide +kernel
  rw [hget, Option.map_some, Option.some.injEq] at hemail
  apply lower_eq_of_sameNocase ?_ hsame
  rw [hemail]
  decide

theorem guesses_bounded_ann :
    ((collect (step .plain false) (attempts .plain) { tables := annTables true }
      twoGuesses).filter fun b => b.clientIp = lit "127.0.0.1" ∧ b.userId = 1 ∧
        0 - 15 * 60 * 10 ^ 6 < b.time.us ∧ b.time.us ≤ 0).length ≤ 10 :=
  guesses_bounded plain_lower (annTables true) (by unfold Ordered; decide +kernel)
    (lit "127.0.0.1") 1 twoGuesses_lookup 0

end console
end HookGuard
