import HookGuard.Console.Interleaving
import HookGuard.Lib.Hex

/- Of a session's token and a reset token the Console keeps the hash, and nothing else.

   The tokens are replaced by texts of their hashes (`digest`), wherever one is drawn or
   presented, and SHA-256 by what reads such a text (`Primitives.digested`). A Console that
   is given these never sees a token, and it goes through the same states: what is in the
   tables and the limiters is a function of the hashes. Its answers differ in the two places
   where a token is shown, the cookie of a session that is started and the form of a reset. -/
namespace HookGuard
open Py store auth

namespace auth

/-- A text that stands for the hash of a token; no token stands for itself, and so does a
    text that has no hash. -/
def digest (prim : Primitives) (token : Str) : Str :=
  if token = [] then []
  else
    match hashToken prim token with
    | .ok h => 35 :: hex h
    | .error _ => token

/-- The primitives of a Console that is given such texts. -/
def Primitives.digested (prim : Primitives) : Primitives :=
  { prim with
    sha256 := fun
      | [] => prim.sha256 []
      | _ :: digits => (fromhex (digits.map UInt8.toNat)).getD [] }

theorem hashToken_digest (prim : Primitives) (token : Str) :
    hashToken prim.digested (digest prim token) = hashToken prim token := by
  by_cases hnone : token = []
  · subst hnone
    rfl
  · rw [digest, if_neg hnone]
    cases h : hashToken prim token with
    | error e =>
      unfold hashToken at h ⊢
      cases hencoded : encodeUtf8 token with
      | none =>
        rw [hencoded] at h
        exact h
      | some b =>
        rw [hencoded] at h
        cases h
    | ok d =>
      -- the text is ASCII, so that its octets are the digits again
      have hdigits : (hex d).map (UInt8.toNat ∘ UInt8.ofNat) = hex d := by
        refine (List.map_congr_left ?_).trans (List.map_id _)
        intro c hc
        have hascii := List.all_eq_true.mp (isAscii_hex d) c hc
        have hlt : c < 128 := of_decide_eq_true hascii
        show c % 256 = c
        omega
      have hencoded : encodeUtf8 (35 :: hex d) = some (35 :: (hex d).map UInt8.ofNat) := by
        apply encodeUtf8_ascii
        rw [isAscii, List.all_cons]
        exact isAscii_hex d
      rw [hashToken, hencoded]
      show Except.ok ((fromhex (((hex d).map UInt8.ofNat).map UInt8.toNat)).getD []) = _
      rw [List.map_map, hdigits, fromhex_hex]
      rfl

/-- Everything but SHA-256 is as it was. -/
theorem normalizeEmail_digested (prim : Primitives) (email : Str) :
    normalizeEmail prim.digested email = normalizeEmail prim email := rfl

theorem hashPassword_digested (prim : Primitives) :
    prim.digested.hashPassword = prim.hashPassword := rfl

theorem verifyPassword_digested (prim : Primitives) :
    prim.digested.verifyPassword = prim.verifyPassword := rfl

theorem dummyHash_digested (prim : Primitives) :
    prim.digested.dummyHash = prim.dummyHash := rfl

theorem digest_eq_nil {prim : Primitives} {token : Str} : digest prim token = [] ↔ token = [] := by
  unfold digest
  split
  · next h => exact iff_of_true rfl h
  · next h =>
    split
    · exact iff_of_false (List.cons_ne_nil _ _) h
    · exact Iff.rfl

/-- The fields of one name hold tokens. -/
def digestAt (prim : Primitives) (name : Str) (fields : List (Str × Str)) : List (Str × Str) :=
  fields.map fun f => (f.1, if f.1 = name then digest prim f.2 else f.2)

theorem lookup_digestAt (prim : Primitives) (name key : Str) (fields : List (Str × Str)) :
    (digestAt prim name fields).lookup key =
      (fields.lookup key).map fun value => if key = name then digest prim value else value := by
  induction fields with
  | nil => rfl
  | cons f fields ih =>
    obtain ⟨k, value⟩ := f
    rw [digestAt, List.map_cons, List.lookup_cons, List.lookup_cons]
    cases hkey : key == k with
    | true =>
      obtain rfl := beq_iff_eq.mp hkey
      rfl
    | false => exact ih

end auth

namespace console

section Digested
variable (prim : Primitives)

/-- The cookies are read of the list, and the header they come in is not. -/
def Request.digested (request : Request) : Request :=
  { request with
    headers := request.headers.filter fun h => decodeLatin1 h.1 ≠ lit "cookie"
    cookies := digestAt prim SESSION_COOKIE_NAME request.cookies }

def Form.digested (form : Form) : Form := digestAt prim (lit "token") form

def Input.digested (input : Input) : Input := { input with token := digest prim input.token }

def Cookie.digested : Cookie → Cookie
  | .set token => .set (digest prim token)
  | cookie => cookie

/-- A page shows a token where it fills in the form of a reset again. -/
def shown (field : String × Msg) : String × Msg :=
  (field.1, if field.1 = "reset_token" then field.2.map fun
    | .text token => .text (digest prim token)
    | part => part
    else field.2)

def Answer.digested : Answer → Answer
  | .page template statusCode context => .page template statusCode (context.map (shown prim))
  | .redirect location cookie => .redirect location (cookie.digested prim)
  | answer => answer

def Plan.digested (pl : Plan) : Plan :=
  { pl with
    answer := pl.answer.map (Answer.digested prim)
    caught := fun why => (pl.caught why).map (Answer.digested prim) }

def Pending.digested (p : Pending) : Pending :=
  { p with
    request := p.request.digested prim
    passed := p.passed }

def State.digested (σ : State) : State :=
  { σ with pending := Option.map (Pending.digested prim) ∘ σ.pending }

def Action.digested : Action → Action
  | .arrive i handler request now => .arrive i handler (request.digested prim) now
  | .resume i form input => .resume i (form.digested prim) (input.digested prim)
  | .mint email token now => .mint email (digest prim token) now
  | a => a

end Digested

/-! ## What is read of a request -/

section Reads
variable {prim : Primitives} {form : Form} {request : Request} {snapshot : Option Snapshot}
  {t : Tables} {input : Input}

theorem Form.get_digested {key default : Str} (h : key ≠ lit "token") :
    (form.digested prim).get key default = form.get key default := by
  unfold Form.get Form.digested
  rw [digestAt, ← List.map_reverse]
  show ((digestAt prim (lit "token") form.reverse).lookup key).getD default = _
  rw [lookup_digestAt]
  cases form.reverse.lookup key with
  | none => rfl
  | some value => exact if_neg h

theorem Form.get_token : (form.digested prim).get (lit "token") [] =
    digest prim (form.get (lit "token") []) := by
  unfold Form.get Form.digested
  rw [digestAt, ← List.map_reverse]
  show ((digestAt prim (lit "token") form.reverse).lookup (lit "token")).getD [] = _
  rw [lookup_digestAt]
  cases form.reverse.lookup (lit "token") with
  | none => exact (digest_eq_nil.mpr rfl).symm
  | some token => rfl

theorem header_digested {key : Str} (h : lower key ≠ lit "cookie") :
    (request.digested prim).headers.get key = request.headers.get key := by
  unfold Headers.get Request.digested
  rw [List.find?_filter]
  congr 2
  funext header
  by_cases hname : decodeLatin1 header.1 = lower key
  · simp [hname, h]
  · simp [hname]

theorem presented_digested :
    presented prim.digested (request.digested prim) = presented prim request := by
  have hcookies : (request.digested prim).cookies =
      digestAt prim SESSION_COOKIE_NAME request.cookies := rfl
  unfold presented
  rw [hcookies, lookup_digestAt]
  cases request.cookies.lookup SESSION_COOKIE_NAME with
  | none => rfl
  | some token =>
    cases token with
    | nil => rfl
    | cons c token =>
      -- an empty cookie is no token, and a text that stands for a hash is not empty
      have hne : digest prim (c :: token) ≠ [] := by
        rw [ne_eq, digest_eq_nil]
        exact List.cons_ne_nil c token
      have hhash := hashToken_digest prim (c :: token)
      rw [Option.map_some, if_pos rfl]
      cases hdigest : digest prim (c :: token) with
      | nil => exact absurd hdigest hne
      | cons c' token' =>
        rw [hdigest] at hhash
        simp only [hhash]

theorem clientIp_digested : (request.digested prim).clientIp = request.clientIp := rfl

theorem limited_digested : (input.digested prim).limited = input.limited := rfl

theorem salt_digested : (input.digested prim).salt = input.salt := rfl

theorem load_digested (t : Tables) (now : Datetime) :
    load prim.digested t (request.digested prim) now = load prim t request now := by
  unfold load
  rw [presented_digested]

theorem checkRequestCsrf_digested (session : Session) :
    checkRequestCsrf (request.digested prim) session (form.digested prim) =
      checkRequestCsrf request session form := by
  unfold checkRequestCsrf
  rw [header_digested (by decide), Form.get_digested (by decide)]

theorem requireCsrf_digested {rest rest' : Snapshot → Plan}
    (h : ∀ s, rest' s = (rest s).digested prim) :
    requireCsrf (request.digested prim) snapshot (form.digested prim) rest' =
      (requireCsrf request snapshot form rest).digested prim := by
  unfold requireCsrf
  cases snapshot with
  | none => rfl
  | some s =>
    simp only [checkRequestCsrf_digested]
    cases checkRequestCsrf request s.session form with
    | error e => rfl
    | ok given =>
      cases given with
      | false => rfl
      | true => exact h s

theorem lookUp_digested {v : Value} {rest rest' : Plan} (h : rest' = rest.digested prim) :
    Plan.lookUp v rest' = (Plan.lookUp v rest).digested prim := by
  unfold Plan.lookUp
  cases bindError v with
  | none => exact h
  | some e => rfl

theorem ite_digested {c : Prop} [Decidable c] {a a' b b' : Plan} (ha : a' = a.digested prim)
    (hb : b' = b.digested prim) : (if c then a' else b') = (if c then a else b).digested prim := by
  split
  · exact ha
  · exact hb

theorem startSession_digested (userId : Nat) :
    startSession prim.digested (request.digested prim) userId (input.digested prim) =
      startSession prim request userId input := by
  have htoken : (input.digested prim).token = digest prim input.token := rfl
  unfold startSession
  rw [htoken, hashToken_digest, header_digested (by decide)]
  rfl

end Reads

/-! ## What a handler does -/

section Plans
variable {prim : Primitives} {form : Form} {request : Request} {snapshot : Option Snapshot}
  {t : Tables} {input : Input}

theorem page_digested {template : String} {statusCode : Nat} {context : List (String × Msg)}
    (h : ∀ f ∈ context, f.1 ≠ "reset_token") :
    (Answer.page template statusCode context).digested prim =
      .page template statusCode context := by
  show Answer.page template statusCode (context.map (shown prim)) = _
  rw [(List.map_congr_left fun f hf => ?_).trans (List.map_id context)]
  exact Prod.ext rfl (if_neg (h f hf))

theorem stop_page {template : String} {statusCode : Nat} {context : List (String × Msg)}
    (h : ∀ f ∈ context, f.1 ≠ "reset_token") :
    Plan.stop (.page template statusCode context) =
      (Plan.stop (.page template statusCode context)).digested prim := by
  show _ = Plan.stop ((Answer.page template statusCode context).digested prim)
  rw [page_digested h]

theorem withSession_digested (userId : Nat) (statements : List Statement) (location : Str) :
    withSession prim.digested (request.digested prim) userId (input.digested prim) statements
        location =
      (withSession prim request userId input statements location).digested prim := by
  unfold withSession
  rw [startSession_digested]
  cases startSession prim request userId input with
  | error e => rfl
  | ok session => rfl

theorem loggedIn_digested (email : Str) (userId : Nat) (nextPath : Str) :
    loggedIn prim.digested (request.digested prim) (input.digested prim) email userId nextPath =
      (loggedIn prim request input email userId nextPath).digested prim := by
  unfold loggedIn
  cases locationHeader nextPath with
  | none => rfl
  | some header => exact withSession_digested _ _ _

theorem authenticate_digested (email password nextPath : Str) :
    authenticate prim.digested t (request.digested prim) (input.digested prim) email password
        nextPath =
      ((authenticate prim t request input email password nextPath).1.digested prim,
        (authenticate prim t request input email password nextPath).2) := by
  have hfailed : ∀ statements, ({ statements, answer := .ok (loginRejected nextPath) } : Plan) =
      ({ statements, answer := .ok (loginRejected nextPath) } : Plan).digested prim := by
    intro statements
    show _ = ({ statements, answer := .ok ((loginRejected nextPath).digested prim) } : Plan)
    rw [loginRejected, page_digested (by simp)]
  unfold authenticate
  cases bindError (.str email) with
  | some e => rfl
  | none =>
    cases t.userByEmail email with
    | none =>
      simp only [verifyPassword_digested, dummyHash_digested]
      cases prim.verifyPassword password prim.dummyHash with
      | error e => rfl
      | ok _ => exact Prod.ext (hfailed _) rfl
    | some found =>
      obtain ⟨id, user⟩ := found
      simp only [verifyPassword_digested]
      split
      · exact Prod.ext (hfailed _) rfl
      · cases prim.verifyPassword password user.passwordHash with
        | error e => rfl
        | ok verified =>
          cases verified with
          | false => exact Prod.ext (hfailed _) rfl
          | true => exact Prod.ext (loggedIn_digested _ _ _) rfl

theorem handleLogin_digested (limiter : Limiter) :
    handleLogin prim.digested t (request.digested prim) (form.digested prim)
        (input.digested prim) limiter =
      (handleLogin prim t request form input limiter).digested prim := by
  unfold handleLogin loginTraced
  simp (disch := decide) only [Form.get_digested, authenticate_digested, normalizeEmail_digested,
    clientIp_digested, limited_digested]
  generalize limiter.allow _ _ = asked
  rcases asked with e | ⟨⟨allowed, retryAfter⟩, limiter⟩
  · rfl
  · cases allowed with
    | false => rfl
    | true => rfl

theorem handleSignup_digested :
    handleSignup prim.digested t (request.digested prim) (form.digested prim)
        (input.digested prim) =
      (handleSignup prim t request form input).digested prim := by
  have hstop : ∀ m, Plan.stop (signupRejected m) =
      (Plan.stop (signupRejected m)).digested prim := fun m => stop_page (by simp)
  unfold handleSignup
  simp (disch := decide) only [Form.get_digested, normalizeEmail_digested, hashPassword_digested,
    salt_digested]
  refine ite_digested (hstop _) ?_
  cases validatePassword (form.get (lit "password") []) with
  | some m => exact hstop m
  | none =>
    apply lookUp_digested
    refine ite_digested (hstop _) ?_
    cases prim.hashPassword input.salt (form.get (lit "password") []) with
    | error e => exact hstop _
    | ok passwordHash =>
      have hpage : (signupRejected GENERIC_AUTH_ERROR).digested prim =
          signupRejected GENERIC_AUTH_ERROR := page_digested (by simp)
      simp only [withSession_digested, Plan.digested, hpage, Option.map_some]
      rfl

theorem handleLogout_digested :
    handleLogout (request.digested prim) snapshot (form.digested prim) (input.digested prim) =
      (handleLogout request snapshot form input).digested prim :=
  requireCsrf_digested fun _ => rfl

theorem consumeResetToken_digested (userId : Int) (token : Str) :
    consumeResetToken prim.digested t (input.digested prim) userId (digest prim token) =
      consumeResetToken prim t input userId token := by
  unfold consumeResetToken
  rw [hashToken_digest]
  rfl

theorem resetRejected_digested (m : Msg) :
    resetRejected (form.digested prim) m = (resetRejected form m).digested prim := by
  unfold resetRejected
  simp (disch := decide) only [Form.get_digested, Form.get_token]
  simp [Answer.digested, shown]

theorem resetPassword_digested (userId : Int) (consumed : List Statement) :
    resetPassword prim.digested (request.digested prim) (form.digested prim)
        (input.digested prim) userId consumed =
      (resetPassword prim request form input userId consumed).digested prim := by
  unfold resetPassword
  simp (disch := decide) only [Form.get_digested, resetRejected_digested, hashPassword_digested,
    salt_digested]
  refine ite_digested rfl ?_
  cases validatePassword (form.get (lit "password") []) with
  | some m => rfl
  | none =>
    cases prim.hashPassword input.salt (form.get (lit "password") []) with
    | error e => rfl
    | ok passwordHash => rfl

theorem handleResetPassword_digested :
    handleResetPassword prim.digested t (request.digested prim) (form.digested prim)
        (input.digested prim) =
      (handleResetPassword prim t request form input).digested prim := by
  unfold handleResetPassword
  simp (disch := decide) only [Form.get_digested, Form.get_token, resetRejected_digested,
    resetPassword_digested, consumeResetToken_digested]
  cases pyInt (form.get (lit "uid") []) with
  | none => rfl
  | some userId =>
    simp only
    generalize consumeResetToken _ _ _ _ _ = consumed
    rcases consumed with e | ⟨statements, accepted⟩
    · rfl
    · cases accepted with
      | false => rfl
      | true => rfl

theorem handlePasswordChange_digested :
    handlePasswordChange prim.digested (request.digested prim) snapshot (form.digested prim)
        (input.digested prim) =
      (handlePasswordChange prim request snapshot form input).digested prim := by
  apply requireCsrf_digested
  intro s
  simp (disch := decide) only [Form.get_digested, verifyPassword_digested, hashPassword_digested,
    salt_digested]
  cases prim.verifyPassword (form.get (lit "current_password") []) s.user.passwordHash with
  | error e => rfl
  | ok verified =>
    cases verified with
    | false => exact stop_page (by simp)
    | true =>
      refine ite_digested (stop_page (by simp)) ?_
      cases validatePassword (form.get (lit "new_password") []) with
      | some m => exact stop_page (by simp)
      | none =>
        cases prim.hashPassword input.salt (form.get (lit "new_password") []) with
        | error e => rfl
        | ok passwordHash =>
          simp only [Plan.digested, Except.map, settingsPage]
          rw [page_digested (by simp)]
          rfl

theorem handleSessionRevoke_digested (target : Nat) :
    handleSessionRevoke t (request.digested prim) snapshot (form.digested prim)
        (input.digested prim) target =
      (handleSessionRevoke t request snapshot form input target).digested prim :=
  requireCsrf_digested fun _ => ite_digested rfl rfl

theorem handleSessionRevokeOthers_digested :
    handleSessionRevokeOthers (request.digested prim) snapshot (form.digested prim)
        (input.digested prim) =
      (handleSessionRevokeOthers request snapshot form input).digested prim :=
  requireCsrf_digested fun _ => rfl

theorem handleRetentionChange_digested :
    handleRetentionChange (request.digested prim) snapshot (form.digested prim) =
      (handleRetentionChange request snapshot form).digested prim := by
  apply requireCsrf_digested
  intro s
  simp (disch := decide) only [Form.get_digested]
  cases pyInt (form.get (lit "retention_days") []) with
  | none => exact stop_page (by simp)
  | some days => exact ite_digested (stop_page (by simp)) rfl

theorem handleUserCreate_digested :
    handleUserCreate prim.digested t (request.digested prim) snapshot (form.digested prim)
        (input.digested prim) =
      (handleUserCreate prim t request snapshot form input).digested prim := by
  apply requireCsrf_digested
  intro s
  simp (disch := decide) only [Form.get_digested, normalizeEmail_digested, hashPassword_digested,
    salt_digested]
  refine ite_digested (stop_page (by simp)) ?_
  cases Role.ofText (form.get (lit "role") (lit "member")) with
  | none => exact stop_page (by simp)
  | some role =>
    simp only
    cases validatePassword (form.get (lit "password") []) with
    | some m => exact stop_page (by simp)
    | none =>
      cases prim.hashPassword input.salt (form.get (lit "password") []) with
      | error e => rfl
      | ok passwordHash =>
        simp only [Plan.digested]
        congr 1
        funext why
        cases why with
        | integrity m =>
          show _ = some ((settingsPage _ _).digested prim)
          rw [settingsPage, page_digested (by simp)]
        | binding m => rfl

theorem handleUserDeactivate_digested (targetId : Nat) :
    handleUserDeactivate t (request.digested prim) snapshot (form.digested prim) targetId =
      (handleUserDeactivate t request snapshot form targetId).digested prim := by
  apply requireCsrf_digested
  intro s
  apply lookUp_digested
  cases t.users.get targetId with
  | none => rfl
  | some target => exact ite_digested (stop_page (by simp)) rfl

theorem validateEndpoint_digested (e : Endpoint) :
    validateEndpoint prim.digested e = validateEndpoint prim e := rfl

theorem formEndpoint_digested : formEndpoint (form.digested prim) = formEndpoint form := by
  unfold formEndpoint
  simp (disch := decide) only [Form.get_digested]

theorem caughtSaving_digested (why : Refusal) :
    (caughtSaving prim why).map (Answer.digested prim) = caughtSaving prim why := by
  unfold caughtSaving
  split
  · show some ((formError _).digested prim) = _
    rw [formError, page_digested (by simp)]
  · rfl

theorem handleEndpointCreate_digested :
    handleEndpointCreate prim.digested (request.digested prim) snapshot (form.digested prim)
        (input.digested prim) =
      (handleEndpointCreate prim request snapshot form input).digested prim := by
  apply requireCsrf_digested
  intro s
  rw [formEndpoint_digested]
  simp only [validateEndpoint_digested]
  rcases validateEndpoint prim (formEndpoint form) with e | m | m
  · rfl
  · simp only [Plan.digested, caughtSaving_digested]
    rfl
  · exact stop_page (by simp)

theorem handleEndpointUpdate_digested (id : Nat) :
    handleEndpointUpdate prim.digested t (request.digested prim) snapshot (form.digested prim)
        (input.digested prim) id =
      (handleEndpointUpdate prim t request snapshot form input id).digested prim := by
  apply requireCsrf_digested
  intro s
  apply lookUp_digested
  rw [formEndpoint_digested]
  cases t.endpoints.get id with
  | none => exact stop_page (List.forall_mem_nil _)
  | some existing =>
    simp only [validateEndpoint_digested]
    rcases validateEndpoint prim (formEndpoint form) with e | m | m
    · rfl
    · simp only [Plan.digested, caughtSaving_digested]
      rfl
    · exact stop_page (by simp)

theorem handleEndpointDelete_digested (id : Nat) (post : Bool) :
    handleEndpointDelete (request.digested prim) snapshot (form.digested prim) id post =
      (handleEndpointDelete request snapshot form id post).digested prim := by
  unfold handleEndpointDelete
  cases post with
  -- no form is read of a DELETE
  | false => exact @requireCsrf_digested prim [] request snapshot _ _ fun _ => rfl
  | true => exact requireCsrf_digested fun _ => rfl

theorem handleEndpointToggleActive_digested (id : Nat) :
    handleEndpointToggleActive t (request.digested prim) snapshot (form.digested prim)
        (input.digested prim) id =
      (handleEndpointToggleActive t request snapshot form input id).digested prim := by
  apply requireCsrf_digested
  intro s
  apply lookUp_digested
  cases t.endpoints.get id with
  | none => exact stop_page (List.forall_mem_nil _)
  | some endpoint => rfl

theorem plan_digested (limiter : Limiter) (p : Pending) :
    plan prim.digested t limiter (p.digested prim) (form.digested prim) (input.digested prim) =
      (plan prim t limiter p form input).digested prim := by
  obtain ⟨handler, request, snapshot, entered, passed⟩ := p
  cases handler with
  | login => exact handleLogin_digested limiter
  | signup => exact handleSignup_digested
  | logout => exact handleLogout_digested
  | resetPassword => exact handleResetPassword_digested
  | passwordChange => exact handlePasswordChange_digested
  | sessionRevoke target => exact handleSessionRevoke_digested target
  | sessionRevokeOthers => exact handleSessionRevokeOthers_digested
  | retentionChange => exact handleRetentionChange_digested
  | userCreate => exact handleUserCreate_digested
  | userDeactivate target => exact handleUserDeactivate_digested target
  | endpointCreate => exact handleEndpointCreate_digested
  | endpointUpdate id => exact handleEndpointUpdate_digested id
  | endpointDelete id post => exact handleEndpointDelete_digested id post
  | endpointToggleActive id => exact handleEndpointToggleActive_digested id
  | view => rfl

end Plans

/-! ## Runs -/

section Runs
variable {prim : Primitives} {allowSignup : Bool} {σ : State}

theorem pending_digested (i : Nat) :
    (σ.digested prim).pending i = (σ.pending i).map (Pending.digested prim) := rfl

theorem pending_update {i : Nat} {entry : Option Pending} :
    Function.update (σ.digested prim).pending i (entry.map (Pending.digested prim)) =
      Option.map (Pending.digested prim) ∘ Function.update σ.pending i entry :=
  (Function.comp_update _ _ _ _).symm

theorem drop_digested (i : Nat) : (σ.digested prim).drop i = (σ.drop i).digested prim := by
  show State.mk _ _ _ (Function.update (σ.digested prim).pending i none) = _
  exact congrArg (State.mk _ _ _) (@pending_update prim σ i none)

theorem arrive_digested (i : Nat) (handler : Handler) (request : Request) (now : Datetime) :
    (σ.digested prim).arrive prim.digested i handler (request.digested prim) now =
      (σ.arrive prim i handler request now).digested prim := by
  unfold State.arrive
  show State.mk (load prim.digested σ.tables (request.digested prim) now).1 _ _ _ = _
  simp only [load_digested]
  apply congrArg (State.mk _ _ _)
  rw [← pending_update, Option.map_map]
  rfl

theorem suspended_digested (i : Nat) :
    (σ.digested prim).suspended i = (σ.suspended i).map (Pending.digested prim) := by
  unfold State.suspended
  show ((σ.pending i).map (Pending.digested prim)).filter Pending.entered = _
  cases σ.pending i with
  | none => rfl
  | some p =>
    show Option.filter Pending.entered (some (p.digested prim)) = _
    rw [Option.filter_some, Option.filter_some]
    show (if p.entered = true then _ else _) = _
    split <;> rfl

theorem enter_digested (i : Nat) (p : Pending) (now : Datetime) :
    (σ.digested prim).enter allowSignup i (p.digested prim) now =
      (σ.enter allowSignup i p now).digested prim := by
  -- the limiter is asked about the address of the client, and the guard looks at the session
  have hasked : (σ.digested prim).comesToForm allowSignup (p.digested prim) now =
      σ.comesToForm allowSignup p now := rfl
  unfold State.enter
  simp only [hasked]
  by_cases h : (σ.comesToForm allowSignup p now).1 = true ∧
      p.handler.guard p.request p.snapshot = none
  · have h' : (σ.comesToForm allowSignup p now).1 = true ∧
        (p.digested prim).handler.guard (p.digested prim).request (p.digested prim).snapshot =
          none := h
    rw [dif_pos h', dif_pos h]
    apply congrArg (State.mk _ _ _)
    exact @pending_update prim σ i (some { p with entered := true, passed := fun _ => h.2 })
  · have h' : ¬((σ.comesToForm allowSignup p now).1 = true ∧
        (p.digested prim).handler.guard (p.digested prim).request (p.digested prim).snapshot =
          none) := h
    rw [dif_neg h', dif_neg h, drop_digested]
    rfl

theorem resume_digested (i : Nat) (p : Pending) (form : Form) (input : Input) :
    (σ.digested prim).resume prim.digested i (p.digested prim) (form.digested prim)
        (input.digested prim) =
      (σ.resume prim i p form input).digested prim := by
  unfold State.resume
  show State.mk (execute (plan prim.digested σ.tables σ.loginLimiter _ _ _).statements _).tables
    ((plan prim.digested σ.tables σ.loginLimiter _ _ _).limiter.getD _) _ _ = _
  rw [drop_digested, plan_digested]
  rfl

theorem mintReset_digested (t : Tables) (email token : Str) (now : Datetime) :
    mintReset prim.digested t email (digest prim token) now = mintReset prim t email token now := by
  unfold mintReset
  rw [hashToken_digest]
  rfl

/-- A step with the texts is the step with the tokens. -/
theorem step_digested (a : Action) :
    step prim.digested allowSignup (σ.digested prim) (a.digested prim) =
      (step prim allowSignup σ a).digested prim := by
  cases a with
  | arrive i handler request now =>
    show (if ((σ.pending i).map (Pending.digested prim)).isSome then _ else _) =
      State.digested prim (if (σ.pending i).isSome then σ else σ.arrive prim i handler request now)
    rw [Option.isSome_map, arrive_digested]
    split <;> rfl
  | enter i now =>
    simp only [Action.digested, step, pending_digested]
    cases σ.pending i with
    | none => rfl
    | some p =>
      show (if p.entered then _ else _) = State.digested prim (if p.entered then _ else _)
      rw [enter_digested]
      split <;> rfl
  | resume i form input =>
    simp only [Action.digested, step, suspended_digested]
    cases σ.suspended i with
    | none => rfl
    | some p => exact resume_digested i p form input
  | abandon i => exact drop_digested i
  | mint email token now =>
    show State.mk (execute (mintReset prim.digested σ.tables email (digest prim token) now)
      σ.tables).tables _ _ _ = _
    rw [mintReset_digested]
    rfl
  | prune now => rfl

theorem run_digested (actions : List Action) :
    (actions.map (Action.digested prim)).foldl (step prim.digested allowSignup)
        (σ.digested prim) =
      (actions.foldl (step prim allowSignup) σ).digested prim := by
  induction actions generalizing σ with
  | nil => rfl
  | cons a actions ih =>
    show List.foldl _ (step prim.digested allowSignup (σ.digested prim) (a.digested prim)) _ = _
    rw [step_digested]
    exact ih

end Runs

/-- The answer of a request that goes on with its form. -/
def State.answer (prim : Primitives) (σ : State) (p : Pending) (form : Form) (input : Input) :
    Except Exc Answer :=
  let pl := plan prim σ.tables σ.loginLimiter p form input
  pl.answered (execute pl.statements σ.tables)

theorem answered_digested (prim : Primitives) (pl : Plan) (r : Executed) :
    (pl.digested prim).answered r = (pl.answered r).map (Answer.digested prim) := by
  unfold Plan.answered
  cases r.refused with
  | none => rfl
  | some why =>
    have hcaught : (pl.digested prim).caught why =
        (pl.caught why).map (Answer.digested prim) := rfl
    simp only [hcaught]
    cases r.executed with
    | nil =>
      cases pl.caught why with
      | none => rfl
      | some a => rfl
    | cons st sts => rfl

/-- The Console that is given the texts goes through the same states, and answers the same
    but for the tokens that an answer shows. -/
theorem tokens_hashed (prim : Primitives) (allowSignup : Bool) (actions : List Action) :
    let σ := actions.foldl (step prim allowSignup) { tables := {} }
    let σ' := (actions.map (Action.digested prim)).foldl (step prim.digested allowSignup)
      { tables := {} }
    σ'.tables = σ.tables ∧ σ'.loginLimiter = σ.loginLimiter ∧
      σ'.signupLimiter = σ.signupLimiter ∧
      (∀ i, σ'.pending i = (σ.pending i).map (Pending.digested prim)) ∧
      ∀ p form input,
        σ'.answer prim.digested (p.digested prim) (form.digested prim) (input.digested prim) =
          (σ.answer prim p form input).map (Answer.digested prim) := by
  intro σ σ'
  have hrun : σ' = σ.digested prim :=
    @run_digested prim allowSignup { tables := {} } actions
  rw [hrun]
  refine ⟨rfl, rfl, rfl, fun i => rfl, ?_⟩
  intro p form input
  unfold State.answer
  show ((plan prim.digested σ.tables σ.loginLimiter _ _ _).answered (execute
    (plan prim.digested σ.tables σ.loginLimiter _ _ _).statements σ.tables)) = _
  rw [plan_digested]
  exact answered_digested prim _ _

end console
end HookGuard
