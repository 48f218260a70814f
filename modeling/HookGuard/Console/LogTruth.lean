import HookGuard.Console.AuditLog

/- The security log is true, over whole runs: what an event tells of happened, at the step
   that wrote it.

   A handler writes its event behind the statements that it is of, and `execute` stops at the
   first that is refused; so an event is there only where all of them were executed
   (`execute_logged`). Which they are, and what the handler checked before, is `Recorded`:
   one case for each call of `_record`. Behind the event comes at most the session of a login
   or a signup (`Ensues`). So the step has done what the event tells of and nothing else
   (`Happened`), and the log tells of all that becomes of accounts and sessions
   (`log_explains`), and tells nothing else (`log_true`). -/
namespace HookGuard
open Py store auth Runs

namespace store

/-- The tables once the statements are executed, and the event after them. -/
def written (t : Tables) (executed : List Statement) (e : AuthEvent) : Tables :=
  (Statement.insertAuthEvent e).apply (executed.foldl (fun t st => st.apply t) t)

section Execution
variable {t : Tables} {before after : List Statement}

theorem execute_accepted {sts : List Statement} (h : (execute sts t).refused = none) :
    (execute sts t).tables = sts.foldl (fun t st => st.apply t) t := by
  induction sts generalizing t with
  | nil => rfl
  | cons st sts ih =>
    rw [execute] at h ⊢
    cases hr : st.refusal t with
    | some r =>
      rw [hr] at h
      cases h
    | none =>
      rw [hr] at h
      exact ih h

theorem execute_append (before after : List Statement) (t : Tables) :
    (execute (before ++ after) t).tables =
      if (execute before t).refused = none then (execute after (execute before t).tables).tables
      else (execute before t).tables := by
  induction before generalizing t with
  | nil => rfl
  | cons st before ih =>
    rw [List.cons_append, execute, execute]
    cases hr : st.refusal t with
    | some r => rfl
    | none => exact ih (st.apply t)

/-- What is written to the log is an event behind statements that were all executed. -/
theorem execute_logged {e e' : AuthEvent}
    (hbefore : ∀ st ∈ before, st.event = none) (hafter : ∀ st ∈ after, st.event = none)
    {events : List AuthEvent}
    (hlog : (execute (before ++ .insertAuthEvent e :: after) t).tables.log = t.log ++ events)
    (hmem : e' ∈ events) :
    e' = e ∧ events = [e] ∧ (execute (before ++ .insertAuthEvent e :: after) t).tables =
      (execute after (written t before e)).tables := by
  have nothing : ∀ {t' : Tables}, t'.log = t.log → t'.log = t.log ++ events → False := by
    intro t' hsame hgrown
    rw [hsame] at hgrown
    rw [List.self_eq_append_right.mp hgrown] at hmem
    cases hmem
  rw [execute_append] at hlog ⊢
  split at hlog
  · next haccepted =>
    rw [if_pos haccepted]
    have htables := execute_accepted haccepted
    rw [execute] at hlog ⊢
    cases hr : (Statement.insertAuthEvent e).refusal (execute before t).tables with
    | some r =>
      rw [hr] at hlog
      exact (nothing (log_silent hbefore) hlog).elim
    | none =>
      rw [hr] at hlog
      rw [written, ← htables]
      have hwritten : (execute after ((Statement.insertAuthEvent e).apply
          (execute before t).tables)).tables.log = t.log ++ [e] := by
        rw [log_silent hafter, log_apply, log_silent hbefore]
        rfl
      have hone : events = [e] := List.append_cancel_left (hlog.symm.trans hwritten)
      rw [hone] at hmem
      exact ⟨List.mem_singleton.mp hmem, hone, rfl⟩
  · exact (nothing (log_silent hbefore) hlog).elim

end Execution

/-- The statement has been executed: from the first tables, and the second have it. -/
def Statement.Done (t t' : Tables) : Statement → Prop
  | createUser email passwordHash role createdAt =>
    t'.users.get t.users.nextId = some ⟨email, passwordHash, role, true, createdAt⟩
  | updatePasswordHash userId passwordHash => ∀ (id : Nat) user, (id : Int) = userId →
    t'.users.get id = some user → user.passwordHash = passwordHash
  | deleteSession id => t'.sessions.get id = none
  | deleteSessionsForUserExcept userId keepId => ∀ id row, t'.sessions.get id = some row →
    (row.userId : Int) = userId → id = keepId
  | deleteSetting key => t'.setting key = none
  | _ => True

section Done
variable {t t' t₀ : Tables}

theorem done_updatePasswordHash {uid : Int} {passwordHash : Str}
    (h : t'.users = ((Statement.updatePasswordHash uid passwordHash).apply t).users) :
    Statement.Done t₀ t' (.updatePasswordHash uid passwordHash) := by
  intro id user hid hget
  simp only [h, Statement.apply, Sqlite.Table.get_update, hid, beq_self_eq_true, if_true] at hget
  obtain ⟨old, -, rfl⟩ := Option.map_eq_some_iff.mp hget
  rfl

theorem done_deleteSessionsForUserExcept {uid : Int} {keep : Nat}
    (h : t'.sessions = ((Statement.deleteSessionsForUserExcept uid keep).apply t).sessions) :
    Statement.Done t₀ t' (.deleteSessionsForUserExcept uid keep) := by
  intro id row hget huid
  simp only [h, Statement.apply, Sqlite.Table.get_delete] at hget
  obtain ⟨-, hkept⟩ := Option.filter_eq_some_iff.mp hget
  simpa [huid] using hkept

theorem done_deleteSession {id : Nat}
    (h : t'.sessions = ((Statement.deleteSession id).apply t).sessions) :
    Statement.Done t₀ t' (.deleteSession id) := by
  simp [Statement.Done, h, Statement.apply, Sqlite.Table.get_delete]

theorem done_deleteSetting {key : Str}
    (h : t'.settings = ((Statement.deleteSetting key).apply t).settings) :
    Statement.Done t₀ t' (.deleteSetting key) := by
  show t'.settings.get key = none
  rw [h]
  simp [Statement.apply]

end Done

end store

namespace console

/-! ## What a handler records -/

/-- The event of `_record`. -/
def entry (request : Request) (kind : AuthEventKind) (email : Str) (userId : Option Int)
    (input : Input) : AuthEvent :=
  ⟨input.logged.unixMs, userId, email, kind, request.clientIp⟩

/-- The statements before an event, and what the handler checked. -/
inductive Recorded (prim : Primitives) (t : Tables) (p : Pending) (form : Form) (input : Input) :
    List Statement → AuthEvent → Prop
  /-- The password of an active user was given. -/
  | loginOk {email : Str} {id : Nat} {user : User} (handler : p.handler = .login)
      (address : email = normalizeEmail prim (form.get (lit "email") []))
      (found : t.userByEmail email = some (id, user)) (active : user.active = true)
      (verified :
        prim.verifyPassword (form.get (lit "password") []) user.passwordHash = .ok true) :
      Recorded prim t p form input [] (entry p.request .loginOk email (some id) input)
  | loginUnknown {email : Str} (handler : p.handler = .login)
      (address : email = normalizeEmail prim (form.get (lit "email") []))
      (nobody : t.userByEmail email = none) :
      Recorded prim t p form input [] (entry p.request .loginFail email none input)
  | loginFail {email : Str} {id : Nat} {user : User} (handler : p.handler = .login)
      (address : email = normalizeEmail prim (form.get (lit "email") []))
      (found : t.userByEmail email = some (id, user))
      (failed : user.active = false ∨
        prim.verifyPassword (form.get (lit "password") []) user.passwordHash = .ok false) :
      Recorded prim t p form input [] (entry p.request .loginFail email (some id) input)
  | userCreate {email passwordHash : Str} {role : Role} (creates : Creates prim t p form role)
      (address : email = normalizeEmail prim (form.get (lit "email") []))
      (chosen : Chosen prim form input (lit "password") passwordHash) :
      Recorded prim t p form input
        [.createUser email passwordHash role input.created.unixMs]
        (entry p.request .userCreate email (some t.users.nextId) input)
  | logout (s : Snapshot) (handler : p.handler = .logout)
      (auth : Authorized p.request p.snapshot form s) :
      Recorded prim t p form input [.deleteSession s.sessionId]
        (entry p.request .logout s.user.email (some s.userId) input)
  | sessionRevoke (s : Snapshot) {target : Nat} {row : Session}
      (handler : p.handler = .sessionRevoke target)
      (auth : Authorized p.request p.snapshot form s)
      (found : t.sessions.get target = some row) (own : row.userId = s.userId) :
      Recorded prim t p form input [.deleteSession target]
        (entry p.request .sessionRevoke s.user.email (some s.userId) input)
  | sessionRevokeOthers (s : Snapshot) (handler : p.handler = .sessionRevokeOthers)
      (auth : Authorized p.request p.snapshot form s) :
      Recorded prim t p form input [.deleteSessionsForUserExcept s.userId s.sessionId]
        (entry p.request .sessionRevoke s.user.email (some s.userId) input)
  | passwordChange (s : Snapshot) {passwordHash : Str} (handler : p.handler = .passwordChange)
      (auth : Authorized p.request p.snapshot form s) (changes : ChangesPassword prim s form)
      (chosen : Chosen prim form input (lit "new_password") passwordHash) :
      Recorded prim t p form input
        [.updatePasswordHash s.userId passwordHash,
          .deleteSessionsForUserExcept s.userId s.sessionId]
        (entry p.request .passwordChange s.user.email (some s.userId) input)
  | passwordReset {uid : Int} {passwordHash : Str} (handler : p.handler = .resetPassword)
      (resets : ResetsPassword prim t form input uid)
      (chosen : Chosen prim form input (lit "password") passwordHash) :
      Recorded prim t p form input
        [.deleteSetting (resetKey uid), .updatePasswordHash uid passwordHash,
          .deleteSessionsForUserExcept uid 0]
        (entry p.request .passwordChange [] (some uid) input)

/-- What is executed behind an event: for a login that is accepted, and for a signup, the
    session of the user; nothing where it cannot be made, or the redirect before it, and
    nothing for any other event. -/
inductive Ensues (prim : Primitives) (p : Pending) (form : Form) (input : Input)
    (e : AuthEvent) : List Statement → Prop
  | session {userId : Nat} {row : Session}
      (opens : p.handler = .login ∧ e.kind = .loginOk ∨ p.handler = .signup)
      (own : e.userId = some (userId : Int))
      (start : startSession prim p.request userId input = .ok (.createSession row)) :
      Ensues prim p form input e [.createSession row]
  | unstarted {userId : Nat} {err : Exc}
      (opens : p.handler = .login ∧ e.kind = .loginOk ∨ p.handler = .signup)
      (own : e.userId = some (userId : Int))
      (start : startSession prim p.request userId input = .error err) :
      Ensues prim p form input e []
  | unsent (opens : p.handler = .login ∧ e.kind = .loginOk)
      (location : locationHeader (safeNext (form.get (lit "next") [])) = none) :
      Ensues prim p form input e []
  | over (other : e.kind ≠ .loginOk) (handler : p.handler ≠ .signup) :
      Ensues prim p form input e []

theorem Ensues.last {prim : Primitives} {p : Pending} {form : Form} {input : Input}
    {e : AuthEvent} {after : List Statement} (h : Ensues prim p form input e after) :
    after = [] ∨ (p.handler = .login ∨ p.handler = .signup) ∧
      ∃ row, after = [.createSession row] := by
  cases h with
  | session opens => exact .inr ⟨opens.imp_left And.left, _, rfl⟩
  | _ => exact .inl rfl

/-- There is no event among the statements, or one, behind what is recorded with it, and
    before what ensues. -/
inductive Records (prim : Primitives) (t : Tables) (p : Pending) (form : Form) (input : Input) :
    List Statement → Prop
  | silent {sts : List Statement} (silent : ∀ st ∈ sts, st.event = none) :
      Records prim t p form input sts
  | event {before after : List Statement} {e : AuthEvent}
      (recorded : Recorded prim t p form input before e)
      (ensues : Ensues prim p form input e after) :
      Records prim t p form input (before ++ .insertAuthEvent e :: after)

section Handlers
variable {prim : Primitives} {t : Tables} {limiter : Limiter} {p : Pending} {form : Form}
  {input : Input}

theorem Records.nil : Records prim t p form input [] := .silent (List.forall_mem_nil _)

theorem Recorded.refused {e : AuthEvent} (h : Recorded prim t p form input [] e)
    (handler : p.handler = .login) (kind : e.kind = .loginFail) :
    Records prim t p form input [.insertAuthEvent e] :=
  .event h (.over (by simp [kind]) (by simp [handler]))

theorem Recorded.withSession {before : List Statement} {e : AuthEvent} {userId : Nat}
    {location : Str} (h : Recorded prim t p form input before e)
    (opens : p.handler = .login ∧ e.kind = .loginOk ∨ p.handler = .signup)
    (own : e.userId = some (userId : Int)) :
    Records prim t p form input
      (withSession prim p.request userId input (before ++ [.insertAuthEvent e])
        location).statements := by
  unfold console.withSession
  cases hstart : startSession prim p.request userId input with
  | error err => exact .event h (.unstarted opens own hstart)
  | ok st =>
    obtain ⟨row, rfl, -⟩ := startSession_eq_ok hstart
    simp only [List.append_assoc]
    exact .event h (.session opens own hstart)

theorem login_records (handler : p.handler = .login) :
    Records prim t p form input (handleLogin prim t p.request form input limiter).statements := by
  unfold handleLogin loginTraced
  simp only
  split
  · exact .nil
  · exact .nil
  · simp only [authenticate]
    split
    · exact .nil
    · split
      · next hnobody =>
        split
        · exact .nil
        · exact (Recorded.loginUnknown handler rfl hnobody).refused handler rfl
      · next id user hfound =>
        split
        · next hinactive =>
          exact (Recorded.loginFail handler rfl hfound (.inl hinactive)).refused handler rfl
        · next hactive =>
          split
          · exact .nil
          · next hwrong =>
            exact (Recorded.loginFail handler rfl hfound (.inr hwrong)).refused handler rfl
          · next hverified =>
            have hok := @Recorded.loginOk prim t p form input _ _ _ handler rfl hfound
              (eq_true_of_ne_false hactive) hverified
            unfold loggedIn
            simp only
            split
            · next hlocation => exact .event hok (.unsent ⟨handler, rfl⟩ hlocation)
            · exact hok.withSession (.inl ⟨handler, rfl⟩) rfl

theorem signup_records (handler : p.handler = .signup) :
    Records prim t p form input (handleSignup prim t p.request form input).statements := by
  rcases handleSignup_statements prim t p.request form input with
    hsts | ⟨email, passwordHash, haddress, -, hchosen, hsts⟩
  · rw [hsts]
    exact .nil
  · rw [hsts]
    exact (Recorded.userCreate (.signup handler rfl) haddress hchosen).withSession (.inr handler)
      rfl

theorem userCreate_records (handler : p.handler = .userCreate) :
    Records prim t p form input
      (handleUserCreate prim t p.request p.snapshot form input).statements := by
  apply requireCsrf_induction (P := fun plan => Records prim t p form input plan.statements)
    (fun _ => .nil)
  intro s hs hcsrf
  simp only
  split
  · exact .nil
  · split
    · exact .nil
    · next role hrole =>
      split
      · exact .nil
      · next hvalid =>
        split
        · exact .nil
        · next hhashed =>
          exact .event
            (.userCreate (.invited s handler ⟨hs, hcsrf⟩ hrole) rfl ⟨hvalid, hhashed⟩)
            (.over (by simp [entry]) (by simp [handler]))

theorem passwordChange_records (handler : p.handler = .passwordChange) :
    Records prim t p form input
      (handlePasswordChange prim p.request p.snapshot form input).statements := by
  apply requireCsrf_induction (P := fun plan => Records prim t p form input plan.statements)
    (fun _ => .nil)
  intro s hs hcsrf
  simp only
  split
  · exact .nil
  · exact .nil
  · next hverified =>
    split
    · exact .nil
    · next hconfirmed =>
      split
      · exact .nil
      · next hvalid =>
        split
        · exact .nil
        · next hhashed =>
          exact .event (.passwordChange s handler ⟨hs, hcsrf⟩
            ⟨hverified, not_not.mp hconfirmed, hvalid⟩ ⟨hvalid, hhashed⟩)
            (.over (by simp [entry]) (by simp [handler]))

theorem resetPassword_records (handler : p.handler = .resetPassword) :
    Records prim t p form input
      (handleResetPassword prim t p.request form input).statements := by
  have consumed : ∀ key, Records prim t p form input [.deleteSetting key] := by
    intro key
    refine .silent ?_
    intro st hst
    rw [List.mem_singleton.mp hst]
    rfl
  unfold handleResetPassword
  split
  · exact .nil
  · next uid huid =>
    split
    · exact .nil
    · next statements hconsume =>
      rcases consumeResetToken_statements hconsume with rfl | ⟨rfl, -⟩
      · exact consumed _
      · exact .nil
    · next statements hconsume =>
      rcases consumeResetToken_statements hconsume with rfl | ⟨-, hfalse⟩
      · unfold resetPassword
        simp only
        split
        · exact consumed _
        · next hconfirmed =>
          split
          · exact consumed _
          · next hvalid =>
            split
            · exact consumed _
            · next hhashed =>
              exact .event (.passwordReset handler
                ⟨huid, hconsume, not_not.mp hconfirmed, hvalid⟩ ⟨hvalid, hhashed⟩)
                (.over (by simp [entry]) (by simp [handler]))
      · cases hfalse

/-- What a handler does is recorded as what it is. -/
theorem plan_records (prim : Primitives) (t : Tables) (limiter : Limiter) (p : Pending)
    (form : Form) (input : Input) :
    Records prim t p form input (plan prim t limiter p form input).statements := by
  have heff := plan_effect prim t limiter p form input
  have apart : ∀ {h : Handler}, p.handler = h →
      (h ∉ [.login, .signup, .logout, .resetPassword, .passwordChange, .sessionRevokeOthers,
        .userCreate] ∧ ∀ target, h ≠ .sessionRevoke target) →
      Records prim t p form input (plan prim t limiter p form input).statements := by
    rintro h rfl hh
    refine .silent ?_
    intro st hst
    have := heff.apart hh st hst
    cases st <;> first | rfl | exact this.elim
  cases hhandler : p.handler with
  | login =>
    unfold plan
    rw [hhandler]
    exact login_records hhandler
  | signup =>
    unfold plan
    rw [hhandler]
    exact signup_records hhandler
  | logout =>
    unfold plan
    rw [hhandler]
    apply requireCsrf_induction (P := fun plan => Records prim t p form input plan.statements)
      (fun _ => .nil)
    intro s hs hcsrf
    exact .event (.logout s hhandler ⟨hs, hcsrf⟩) (.over (by simp [entry]) (by simp [hhandler]))
  | resetPassword =>
    unfold plan
    rw [hhandler]
    exact resetPassword_records hhandler
  | passwordChange =>
    unfold plan
    rw [hhandler]
    exact passwordChange_records hhandler
  | sessionRevoke target =>
    unfold plan
    rw [hhandler]
    apply requireCsrf_induction (P := fun plan => Records prim t p form input plan.statements)
      (fun _ => .nil)
    intro s hs hcsrf
    cases hrow : t.sessions.get target with
    | none => exact .nil
    | some row =>
      simp only [Option.any_some]
      split
      · next hown =>
        exact .event (.sessionRevoke s hhandler ⟨hs, hcsrf⟩ hrow (beq_iff_eq.mp hown))
          (.over (by simp [entry]) (by simp [hhandler]))
      · exact .nil
  | sessionRevokeOthers =>
    unfold plan
    rw [hhandler]
    apply requireCsrf_induction (P := fun plan => Records prim t p form input plan.statements)
      (fun _ => .nil)
    intro s hs hcsrf
    exact .event (.sessionRevokeOthers s hhandler ⟨hs, hcsrf⟩)
      (.over (by simp [entry]) (by simp [hhandler]))
  | userCreate =>
    unfold plan
    rw [hhandler]
    exact userCreate_records hhandler
  | retentionChange => exact apart hhandler ⟨by simp, nofun⟩
  | userDeactivate target => exact apart hhandler ⟨by simp, nofun⟩
  | endpointCreate => exact apart hhandler ⟨by simp, nofun⟩
  | endpointUpdate id => exact apart hhandler ⟨by simp, nofun⟩
  | endpointDelete id post => exact apart hhandler ⟨by simp, nofun⟩
  | endpointToggleActive id => exact apart hhandler ⟨by simp, nofun⟩
  | view => exact apart hhandler ⟨by simp, nofun⟩

theorem Recorded.silent {before : List Statement} {e : AuthEvent}
    (h : Recorded prim t p form input before e) : ∀ st ∈ before, st.event = none := by
  cases h <;> simp [Statement.event]

theorem createSession_done {t : Tables} {after : List Statement} {row : Session}
    (hafter : after = [] ∨ ∃ row, after = [.createSession row])
    (hmem : .createSession row ∈ after) :
    (∃ id, (execute after t).tables.sessions.get id = some row) ∨
      (Statement.createSession row).refusal t ≠ none := by
  rcases hafter with rfl | ⟨row', rfl⟩
  · cases hmem
  · obtain rfl := Statement.createSession.inj (List.mem_singleton.mp hmem)
    cases hr : (Statement.createSession row).refusal t with
    | some r => exact .inr (Option.some_ne_none r)
    | none =>
      left
      rw [execute, hr]
      exact ⟨t.sessions.nextId, by
        simp [execute, Statement.apply, Sqlite.Table.get_insert]⟩

/-- Behind the statements before an event, what they were to do is done, and neither the
    event nor a session undoes it. -/
theorem Recorded.done {before after : List Statement} {e : AuthEvent}
    (h : Recorded prim t p form input before e)
    (last : after = [] ∨ (p.handler = .login ∨ p.handler = .signup) ∧
      ∃ row, after = [.createSession row]) :
    ∀ st ∈ before, st.Done t (execute after (written t before e)).tables := by
  have alone (h : p.handler ≠ .login ∧ p.handler ≠ .signup) : after = [] :=
    last.resolve_right fun h' => h'.1.elim h.1 h.2
  cases h with
  | loginOk => exact List.forall_mem_nil _
  | loginUnknown => exact List.forall_mem_nil _
  | loginFail => exact List.forall_mem_nil _
  | @userCreate email passwordHash role creates =>
    intro st hst
    rw [List.mem_singleton.mp hst]
    -- a session is nothing to the accounts
    refine execute_induction (P := fun t' => Statement.Done t t' (.createUser email passwordHash
      role input.created.unixMs)) ?_ ?_
    · intro st hst t' ih _
      rcases last with rfl | ⟨-, row, rfl⟩
      · cases hst
      · rw [List.mem_singleton.mp hst]
        exact ih
    · simp [written, Statement.Done, Statement.apply, Sqlite.Table.get_insert]
  | logout s handler =>
    obtain rfl := alone (by simp [handler])
    exact List.forall_mem_singleton.mpr (done_deleteSession rfl)
  | sessionRevoke s handler =>
    obtain rfl := alone (by simp [handler])
    exact List.forall_mem_singleton.mpr (done_deleteSession rfl)
  | sessionRevokeOthers s handler =>
    obtain rfl := alone (by simp [handler])
    exact List.forall_mem_singleton.mpr (done_deleteSessionsForUserExcept rfl)
  | passwordChange s handler =>
    obtain rfl := alone (by simp [handler])
    rw [List.forall_mem_cons, List.forall_mem_singleton]
    exact ⟨done_updatePasswordHash rfl, done_deleteSessionsForUserExcept rfl⟩
  | passwordReset handler =>
    obtain rfl := alone (by simp [handler])
    rw [List.forall_mem_cons, List.forall_mem_cons, List.forall_mem_singleton]
    exact ⟨done_deleteSetting rfl, done_updatePasswordHash rfl,
      done_deleteSessionsForUserExcept rfl⟩

end Handlers

/-! ## Over whole runs -/

/-- What a step adds to the log. -/
def logged (prim : Primitives) (allowSignup : Bool) (σ : State) (a : Action) : List AuthEvent :=
  (step prim allowSignup σ a).tables.log.drop σ.tables.log.length

section Runs
variable {prim : Primitives} {allowSignup : Bool} {σ σ' : State} {a : Action}

/-- The step goes on with a request that records the event. It adds the event to the log; the
    statements that the event tells of are all executed, then the event, and then what ensues,
    and nothing else; and after it, what those statements were to do is done, and the session
    that ensues is there, unless it is refused. -/
def Happened (prim : Primitives) (σ σ' : State) (e : AuthEvent) : Action → Prop
  | .resume i form input => ∃ p executed after, σ.suspended i = some p ∧
      Recorded prim σ.tables p form input executed e ∧ Ensues prim p form input e after ∧
      σ'.tables.log = σ.tables.log ++ [e] ∧
      σ'.tables = (execute after (written σ.tables executed e)).tables ∧
      (∀ st ∈ executed, st.Done σ.tables σ'.tables) ∧
      ∀ row, .createSession row ∈ after → (∃ id, σ'.tables.sessions.get id = some row) ∨
        (Statement.createSession row).refusal (written σ.tables executed e) ≠ none
  | _ => False

/-- What a step makes of accounts and sessions is in what it adds to the log, and it has done
    what the events it adds tell of. The middleware, when a request arrives, adds nothing: it
    opens no account and starts no session, and deletes the session of the request's token
    where its time has run out. -/
def Explained (prim : Primitives) (σ σ' : State) : Action → Prop
  | .arrive _ _ request now =>
    σ'.tables.log = σ.tables.log ∧ σ'.tables.users = σ.tables.users ∧
      ∀ id, (σ.tables.sessions.get id = none → σ'.tables.sessions.get id = none) ∧
        ∀ row, σ.tables.sessions.get id = some row → σ'.tables.sessions.get id = none →
          presented prim request = .ok (some row.tokenHash) ∧ liveness row now = .ok .expired
  | a => ∃ events, σ'.tables.log = σ.tables.log ++ events ∧
      Tells σ.tables σ'.tables events ∧ ∀ e ∈ events, Happened prim σ σ' e a

theorem Stepped.log_grows (h : Stepped prim σ a σ') : σ.tables.log <+: σ'.tables.log := by
  obtain ⟨sts, htables, -⟩ := h.statements
  rw [htables]
  exact log_execute sts σ.tables

theorem Stepped.happened (h : Stepped prim σ a σ') {events : List AuthEvent} {e : AuthEvent}
    (hlog : σ'.tables.log = σ.tables.log ++ events) (he : e ∈ events) :
    Happened prim σ σ' e a := by
  have silent : ∀ {sts}, (∀ st ∈ sts, st.event = none) →
      σ'.tables = (execute sts σ.tables).tables → False := by
    intro sts hsts htables
    rw [htables, log_silent hsts] at hlog
    rw [List.self_eq_append_right.mp hlog] at he
    cases he
  obtain ⟨sts, htables, hserves | ⟨i, form, input, p, rfl, hp, rfl⟩⟩ := h.statements
  · refine (silent ?_ htables).elim
    intro st hst
    have := hserves st hst
    cases st <;> first | rfl | exact this.elim
  · have hrecords := plan_records prim σ.tables σ.loginLimiter p form input
    generalize (plan prim σ.tables σ.loginLimiter p form input).statements = sts at htables hrecords
    cases hrecords with
    | silent hsilent => exact (silent hsilent htables).elim
    | @event before after e' recorded ensues =>
      have hafter : ∀ st ∈ after, st.event = none := by
        rcases ensues.last with rfl | ⟨-, row, rfl⟩
        · exact List.forall_mem_nil _
        · exact List.forall_mem_singleton.mpr rfl
      rw [htables] at hlog
      obtain ⟨rfl, rfl, hexecuted⟩ := execute_logged recorded.silent hafter hlog he
      refine ⟨p, before, after, hp, recorded, ensues, ?_, htables.trans hexecuted, ?_, ?_⟩
      · rw [htables]
        exact hlog
      · rw [htables, hexecuted]
        exact recorded.done ensues.last
      · intro row hrow
        rw [htables, hexecuted]
        exact createSession_done (ensues.last.imp_right fun h => h.2) hrow

theorem Stepped.explained (h : Stepped prim σ a σ') (hw : Writable σ)
    (harrive : ∀ i handler request now, a ≠ .arrive i handler request now) :
    Explained prim σ σ' a := by
  obtain ⟨events, hlog, htells⟩ := h.tells hw harrive
  have happened : ∀ e ∈ events, Happened prim σ σ' e a := fun e he => h.happened hlog he
  cases a with
  | arrive i handler request now => exact absurd rfl (harrive _ _ _ _)
  | _ => exact ⟨events, hlog, htells, happened⟩

theorem explained_step (hw : Writable σ) : Explained prim σ (step prim allowSignup σ a) a := by
  have hstep := (step_stepped prim allowSignup σ a).explained hw
  cases a with
  | arrive i handler request now =>
    by_cases hfree : σ.pending i = none
    · unfold Explained
      rw [step_arrive_tables hfree]
      exact load_explained prim σ.tables request now
    · -- the number is taken, and nothing happens
      have hstay : step prim allowSignup σ (.arrive i handler request now) = σ := by
        unfold step
        simp [Option.isSome_iff_ne_none, hfree]
      rw [hstay]
      refine ⟨rfl, rfl, ?_⟩
      intro id
      refine ⟨fun h => h, ?_⟩
      intro row hrow hnone
      cases hnone.symm.trans hrow
  | _ =>
    apply hstep
    intro i handler request now heq
    cases heq

theorem log_run (actions : List Action) :
    (actions.foldl (step prim allowSignup) { tables := {} }).tables.log =
      collect (step prim allowSignup) (logged prim allowSignup) { tables := {} } actions := by
  induction actions using List.reverseRecOn with
  | nil => rfl
  | append_singleton actions a ih =>
    rw [collect_concat, ← ih, List.foldl_append]
    exact List.prefix_append_drop (step_stepped prim allowSignup _ a).log_grows

end Runs

/-- In every run from the empty database whose requests come from addresses that can be
    bound, every step adds to the security log and takes nothing from it, and what the step
    makes of accounts and sessions is in what it adds: every account that is opened, every
    password that is changed, every session that is started, and every one that ends other
    than by its time running out. Each event that it adds is of the request that goes on. -/
theorem log_explains (prim : Primitives) (allowSignup : Bool) (actions : List Action)
    (hbound : ∀ a ∈ actions, Bound a) :
    Along (step prim allowSignup) (fun σ a => Explained prim σ (step prim allowSignup σ a) a)
      { tables := {} } actions := by
  have hall : Along (step prim allowSignup) (fun _ a => Bound a) { tables := {} } actions := by
    generalize ({ tables := {} } : State) = σ
    induction actions generalizing σ with
    | nil => exact trivial
    | cons a actions ih =>
      rw [List.forall_mem_cons] at hbound
      exact ⟨hbound.1, ih hbound.2 _⟩
  refine hall.of_invariant Writable ?_ (fun σ a hw _ => explained_step hw) ⟨?_, ?_⟩
  · intro σ a hw ha
    exact (step_stepped prim allowSignup σ a).writable ha hw
  · intro id user hget
    cases hget
  · intro j q hq
    cases hq

theorem log_explains_two : Along (step .plain true)
    (fun σ a => Explained .plain σ (step .plain true σ a) a) { tables := {} }
      twoAdministrators := by
  apply log_explains
  intro a ha
  have hlocal : bindError (.str (lit "127.0.0.1")) = none := bindError_ascii (by decide)
  simp only [twoAdministrators, Action.whole, List.cons_append, List.nil_append, List.mem_cons,
    List.not_mem_nil, or_false] at ha
  rcases ha with rfl | rfl | rfl | rfl | rfl | rfl | rfl | rfl | rfl
  all_goals first | exact hlocal | exact trivial

end console
end HookGuard
