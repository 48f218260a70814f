import HookGuard.Console.Origins
import HookGuard.Console.Resets

/- The security log (`store/auth_events.py`, `_record` of `routes/auth.py`), over whole
   runs: nothing is taken from it, and what becomes of accounts and sessions is in it.

   A handler writes one event at most, and the statements that can be refused stand before
   it, or are the session's, which the event is written before (`plan_filed`). So either the
   event is written, or nothing has become of accounts and sessions (`Filed.tells`). What is
   not in the log is a session that has run out, which the middleware deletes, and the
   deactivation of a user. -/
namespace HookGuard
open Py store auth Runs

namespace store

/-! ## What an event tells -/

/-- The events of the log, oldest first. -/
def Tables.log (t : Tables) : List AuthEvent := t.authEvents.rows.map Prod.snd

namespace Statement

/-- What a statement writes to the log. -/
def event : Statement → Option AuthEvent
  | insertAuthEvent e => some e
  | _ => none

/-- The event tells of the statement, where it is executed from these tables. -/
def ToldBy (t : Tables) (e : AuthEvent) : Statement → Prop
  | createUser email _ _ _ =>
    e.kind = .userCreate ∧ e.userId = some (t.users.nextId : Int) ∧ e.email = email
  | updatePasswordHash userId _ => e.kind = .passwordChange ∧ e.userId = some userId
  | createSession row => (e.kind = .loginOk ∨ e.kind = .userCreate) ∧
      e.userId = some (row.userId : Int) ∧ e.ip = row.ip
  | deleteSession id => e.kind = .logout ∨ e.kind = .sessionRevoke ∧
      ∀ row, t.sessions.get id = some row → e.userId = some (row.userId : Int)
  | deleteSessionsForUserExcept userId _ =>
    (e.kind = .sessionRevoke ∨ e.kind = .passwordChange) ∧ e.userId = some userId
  | insertAuthEvent e' => e' = e
  | _ => True

/-- The statement opens no account, touches no session, and writes nothing to the log. -/
def Quiet : Statement → Prop
  | createUser .. | touchSession .. | insertAuthEvent _ => False
  | _ => True

/-- The statement leaves accounts, sessions and the log, but for whether a user is active. -/
def Apart : Statement → Prop
  | setUserActive .. | setSetting .. | deleteSetting _ | createEndpoint _ | updateEndpoint ..
  | setEndpointActive .. | deleteEndpoint _ => True
  | _ => False

end Statement

/-- What becomes of accounts and sessions between the tables is in the events. The row that a
    logout deletes may be another user's by then, under the id of the session that logs out;
    so of that event only the kind is asked here, and the rest of the request it is of. -/
structure Tells (t t' : Tables) (events : List AuthEvent) : Prop where
  opened : ∀ id user, t.users.get id = none → t'.users.get id = some user →
    ∃ e ∈ events, e.kind = .userCreate ∧ e.userId = some (id : Int) ∧ e.email = user.email
  changed : ∀ id user user', t.users.get id = some user → t'.users.get id = some user' →
    user'.passwordHash ≠ user.passwordHash →
    ∃ e ∈ events, e.kind = .passwordChange ∧ e.userId = some (id : Int)
  started : ∀ id row, t.sessions.get id = none → t'.sessions.get id = some row →
    ∃ e ∈ events, (e.kind = .loginOk ∨ e.kind = .userCreate) ∧
      e.userId = some (row.userId : Int) ∧ e.ip = row.ip
  ended : ∀ id row, t.sessions.get id = some row → t'.sessions.get id = none →
    ∃ e ∈ events, e.kind = .logout ∨ (e.kind = .sessionRevoke ∨ e.kind = .passwordChange) ∧
      e.userId = some (row.userId : Int)

section Execution
variable {t : Tables} {sts : List Statement} {e : AuthEvent}

theorem log_apply (st : Statement) (t : Tables) : (st.apply t).log = t.log ++ st.event.toList := by
  cases st with
  | insertAuthEvent e => simp [Tables.log, Statement.apply, Statement.event, Sqlite.Table.insert]
  | _ => simp [Tables.log, Statement.apply, Statement.event]

theorem log_execute (sts : List Statement) (t : Tables) : t.log <+: (execute sts t).tables.log := by
  refine execute_induction (P := fun t' => t.log <+: t'.log) ?_ List.prefix_rfl
  rintro st - t' ih -
  rw [log_apply]
  exact ih.trans (List.prefix_append _ _)

/-- Statements without an event leave the log. -/
theorem log_silent (h : ∀ st ∈ sts, st.event = none) :
    (execute sts t).tables.log = t.log := by
  refine execute_induction (P := fun t' => t'.log = t.log) ?_ rfl
  intro st hst t' ih _
  rw [log_apply, h st hst, ih]
  exact List.append_nil _

theorem Statement.Quiet.silent {st : Statement} (h : st.Quiet) : st.event = none := by
  cases st <;> first | rfl | exact h.elim

theorem log_quiet (h : ∀ st ∈ sts, st.Quiet) : (execute sts t).tables.log = t.log :=
  log_silent fun st hst => (h st hst).silent

theorem log_sure {before after : List Statement} (hquiet : ∀ st ∈ before ++ after, st.Quiet)
    (hsure : ∀ st ∈ before ++ [.insertAuthEvent e], ∀ t, st.refusal t = none) :
    (execute (before ++ .insertAuthEvent e :: after) t).tables.log = t.log ++ [e] := by
  induction before generalizing t with
  | nil =>
    have haccepted : (Statement.insertAuthEvent e).refusal t = none := hsure _ (by simp) t
    simp only [List.nil_append, execute, haccepted]
    rw [log_quiet (by simpa using hquiet), log_apply]
    rfl
  | cons st before ih =>
    have hst : st.event = none := (hquiet st (by simp)).silent
    simp only [List.cons_append, execute, hsure st (by simp) t]
    rw [ih (fun st' h => hquiet st' (List.mem_cons_of_mem _ h))
        (fun st' h => hsure st' (List.mem_cons_of_mem _ h)), log_apply, hst, Option.toList_none,
      List.append_nil]

theorem ended_told (h : ∀ st ∈ sts, st.ToldBy t e) {id : Nat} {row : Session}
    (hrow : t.sessions.get id = some row)
    (hgone : (execute sts t).tables.sessions.get id = none) :
    e.kind = .logout ∨ (e.kind = .sessionRevoke ∨ e.kind = .passwordChange) ∧
      e.userId = some (row.userId : Int) := by
  suffices hkept : (∃ row', (execute sts t).tables.sessions.get id = some row' ∧
      row'.userId = row.userId) ∨
      (e.kind = .logout ∨ (e.kind = .sessionRevoke ∨ e.kind = .passwordChange) ∧
        e.userId = some (row.userId : Int)) by
    rcases hkept with ⟨row', hrow', -⟩ | htold
    · cases hrow'.symm.trans hgone
    · exact htold
  refine execute_induction (P := fun t' => (∃ row', t'.sessions.get id = some row' ∧
    row'.userId = row.userId) ∨
    (e.kind = .logout ∨ (e.kind = .sessionRevoke ∨ e.kind = .passwordChange) ∧
      e.userId = some (row.userId : Int))) ?_ (.inl ⟨row, hrow, rfl⟩)
  rintro st hst t' (⟨row', hrow', huser⟩ | htold) -
  · by_cases hwrites : st.WritesSession id row'
    · cases st with
      | touchSession sessionId lastSeenAt =>
        left
        obtain rfl : id = sessionId := hwrites
        exact ⟨{ row' with lastSeenAt }, by simp [Statement.apply, Sqlite.Table.get_update, hrow'],
          huser⟩
      | deleteSession sessionId =>
        right
        obtain rfl : id = sessionId := hwrites
        exact (h _ hst).imp_right fun htold => ⟨.inl htold.1, htold.2 row hrow⟩
      | deleteSessionsForUserExcept userId keepId =>
        right
        obtain ⟨hkind, htold⟩ := h _ hst
        rw [← huser, htold]
        exact .inr ⟨hkind, congrArg some hwrites.1.symm⟩
      | _ => exact hwrites.elim
    · exact .inl ⟨row', Statement.session_kept hrow' hwrites, huser⟩
  · exact .inr htold

theorem opened_first {st : Statement}
    (hcreates : ∀ st' ∈ sts, ∀ email passwordHash role createdAt,
      st' ≠ .createUser email passwordHash role createdAt) {id : Nat} {user : User}
    (hnone : t.users.get id = none)
    (hget : (execute (st :: sts) t).tables.users.get id = some user) :
    id = t.users.nextId ∧ ∃ passwordHash createdAt,
      st = .createUser user.email passwordHash user.role createdAt := by
  rw [execute] at hget
  cases hr : st.refusal t with
  | some r =>
    rw [hr] at hget
    cases hnone.symm.trans hget
  | none =>
    rw [hr] at hget
    have hrest : (execute sts (st.apply t)).tables.users.get id = some user := hget
    cases execute_user_origin hrest with
    | created new created => exact absurd rfl (hcreates _ created _ _ _ _)
    | kept was email role =>
      rcases Statement.user_origin was with ⟨-, createdAt, rfl⟩ | ⟨before, hbefore, -⟩
      · refine ⟨?_, _, createdAt, by rw [email, role]⟩
        by_contra hne
        simp only [Statement.apply, Sqlite.Table.get_insert, if_neg hne, hnone] at was
        cases was
      · cases hnone.symm.trans hbefore

theorem Tells.refl (t : Tables) : Tells t t [] where
  opened id user hnone hget := by cases hnone.symm.trans hget
  changed id user user' hget hget' hne := by
    obtain rfl := Option.some.inj (hget.symm.trans hget')
    exact absurd rfl hne
  started id row hnone hget := by cases hnone.symm.trans hget
  ended id row hget hnone := by cases hnone.symm.trans hget

theorem Tells.of_apart (h : ∀ st ∈ sts, st.Apart) : Tells t (execute sts t).tables [] where
  opened id user hnone hget := by
    cases execute_user_origin hget with
    | created new created => exact (h _ created).elim
    | kept was => cases hnone.symm.trans was
  changed id user user' hget hget' hne := by
    cases execute_user_origin hget' with
    | created new created => exact (h _ created).elim
    | kept was email role hash =>
      obtain rfl := Option.some.inj (was.symm.trans hget)
      exact (h _ (hash.resolve_left hne)).elim
  started id row hnone hget := by
    have htouch : ∀ st ∈ sts, ∀ lastSeenAt, st ≠ .touchSession id lastSeenAt := by
      rintro st hst lastSeenAt rfl
      exact h _ hst
    rcases execute_session_origin htouch hget with hold | hmem
    · cases hnone.symm.trans hold
    · exact (h _ hmem).elim
  ended id row hrow hgone := by
    have hkept : (execute sts t).tables.sessions.get id = some row := by
      apply execute_session_kept hrow
      intro st hst
      have := h st hst
      cases st <;> first | exact fun h => h | exact this.elim
    cases hgone.symm.trans hkept

theorem Tells.of_told {st : Statement} (h : ∀ st' ∈ st :: sts, st'.ToldBy t e)
    (hcreates : ∀ st' ∈ sts, ∀ email passwordHash role createdAt,
      st' ≠ .createUser email passwordHash role createdAt)
    (htouch : ∀ st' ∈ st :: sts, ∀ id lastSeenAt, st' ≠ .touchSession id lastSeenAt) :
    Tells t (execute (st :: sts) t).tables [e] where
  opened id user hnone hget := by
    obtain ⟨rfl, passwordHash, createdAt, rfl⟩ := opened_first hcreates hnone hget
    exact ⟨e, by simp, h _ List.mem_cons_self⟩
  changed id user user' hget hget' hne := by
    cases execute_user_origin hget' with
    | created new => cases new.symm.trans hget
    | kept was email role hash =>
      obtain rfl := Option.some.inj (was.symm.trans hget)
      have hmem := hash.resolve_left hne
      exact ⟨e, by simp, h _ hmem⟩
  started id row hnone hget := by
    rcases execute_session_origin (fun st' hst' => htouch st' hst' id) hget with hold | hmem
    · cases hnone.symm.trans hold
    · exact ⟨e, by simp, h _ hmem⟩
  ended id row hrow hgone := ⟨e, by simp, ended_told h hrow hgone⟩

/-! ## How a handler files its event -/

/-- The statement is one that follows another: told by the event, and quiet but for it. -/
def Statement.Follows (t : Tables) (e : AuthEvent) (st : Statement) : Prop :=
  st.ToldBy t e ∧ st.Quiet

/-- Statements apart from accounts and sessions, alone or before others; or an event and
    what follows it; or a statement, and where it is accepted, the event that tells of it
    without fail. -/
inductive Filed (t : Tables) : List Statement → Prop
  | apart {sts : List Statement} (apart : ∀ st ∈ sts, st.Apart) : Filed t sts
  | setting {key : Str} {sts : List Statement} (rest : Filed t sts) :
      Filed t (.deleteSetting key :: sts)
  | event {e : AuthEvent} {after : List Statement} (follow : ∀ st ∈ after, st.Follows t e)
      (sure : ∀ t, (Statement.insertAuthEvent e).refusal t = none) :
      Filed t (.insertAuthEvent e :: after)
  | after {st : Statement} {e : AuthEvent} {before after : List Statement}
      (told : st.ToldBy t e) (silent : st.event = none)
      (follow : ∀ st' ∈ before ++ after, st'.Follows t e)
      (touch : ∀ id lastSeenAt, st ≠ .touchSession id lastSeenAt)
      (sure : ∀ t, st.refusal t = none → ∀ st' ∈ before ++ [.insertAuthEvent e], ∀ t,
        st'.refusal t = none) :
      Filed t (st :: before ++ .insertAuthEvent e :: after)

theorem Filed.nil : Filed t [] := .apart nofun

theorem told_congr {t' : Tables} (husers : t'.users = t.users)
    (hsessions : t'.sessions = t.sessions) {st : Statement} (h : st.ToldBy t e) :
    st.ToldBy t' e := by
  cases st with
  | createUser email passwordHash role createdAt =>
    simp only [Statement.ToldBy, husers]
    exact h
  | deleteSession id =>
    simp only [Statement.ToldBy, hsessions]
    exact h
  | _ => exact h

theorem tells_event {after : List Statement} (follow : ∀ st ∈ after, st.Follows t e)
    (sure : ∀ t, (Statement.insertAuthEvent e).refusal t = none) :
    (execute (.insertAuthEvent e :: after) t).tables.log = t.log ++ [e] ∧
      Tells t (execute (.insertAuthEvent e :: after) t).tables [e] := by
  refine ⟨?_, .of_told ?_ ?_ ?_⟩
  · exact @log_sure t e [] after (fun st hst => (follow st hst).2)
      (fun st hst => List.mem_singleton.mp hst ▸ sure)
  · intro st' hst'
    rcases List.mem_cons.mp hst' with rfl | hst'
    · exact rfl
    · exact (follow st' hst').1
  · rintro st' hst' email passwordHash role createdAt rfl
    exact (follow _ hst').2
  · rintro st' hst' id lastSeenAt rfl
    rcases List.mem_cons.mp hst' with heq | hst'
    · cases heq
    · exact (follow _ hst').2

/-- A statement that is accepted, and the event that follows without fail. -/
theorem tells_after {st : Statement} {before after : List Statement} (told : st.ToldBy t e)
    (silent : st.event = none) (follow : ∀ st' ∈ before ++ after, st'.Follows t e)
    (touch : ∀ id lastSeenAt, st ≠ .touchSession id lastSeenAt) (haccepted : st.refusal t = none)
    (sure : ∀ st' ∈ before ++ [.insertAuthEvent e], ∀ t, st'.refusal t = none) :
    (execute (st :: before ++ .insertAuthEvent e :: after) t).tables.log = t.log ++ [e] ∧
      Tells t (execute (st :: before ++ .insertAuthEvent e :: after) t).tables [e] := by
  have hrest : ∀ st' ∈ before ++ .insertAuthEvent e :: after,
      st'.Follows t e ∨ st' = .insertAuthEvent e := by
    intro st' hst'
    rcases List.mem_append.mp hst' with hst' | hst'
    · exact .inl (follow st' (List.mem_append_left _ hst'))
    · rcases List.mem_cons.mp hst' with rfl | hst'
      · exact .inr rfl
      · exact .inl (follow st' (List.mem_append_right _ hst'))
  refine ⟨?_, .of_told ?_ ?_ ?_⟩
  · have hgo : (execute (st :: before ++ .insertAuthEvent e :: after) t).tables =
        (execute (before ++ .insertAuthEvent e :: after) (st.apply t)).tables := by
      simp only [List.cons_append, execute, haccepted]
    rw [hgo, log_sure (fun st' h => (follow st' h).2) sure, log_apply, silent]
    simp
  · intro st' hst'
    rcases List.mem_cons.mp hst' with rfl | hst'
    · exact told
    · rcases hrest st' hst' with hf | rfl
      · exact hf.1
      · exact rfl
  · rintro st' hst' email passwordHash role createdAt rfl
    rcases hrest _ hst' with hf | heq
    · exact hf.2
    · cases heq
  · rintro st' hst' id lastSeenAt rfl
    rcases List.mem_cons.mp hst' with rfl | hst'
    · exact touch _ _ rfl
    · rcases hrest _ hst' with hf | heq
      · exact hf.2
      · cases heq

theorem Filed.tells (h : Filed t sts) {t' : Tables} (husers : t'.users = t.users)
    (hsessions : t'.sessions = t.sessions) : ∃ events,
    (execute sts t').tables.log = t'.log ++ events ∧
      Tells t' (execute sts t').tables events := by
  have follows : ∀ {e : AuthEvent} {sts : List Statement}, (∀ st ∈ sts, Statement.Follows t e st) →
      ∀ st ∈ sts, Statement.Follows t' e st := by
    intro e sts h st hst
    exact ⟨told_congr husers hsessions (h st hst).1, (h st hst).2⟩
  induction h generalizing t' with
  | @apart sts apart =>
    refine ⟨[], ?_, .of_apart apart⟩
    rw [List.append_nil]
    refine execute_induction (P := fun t'' => t''.log = t'.log) ?_ rfl
    intro st hst t'' ih _
    have := apart st hst
    rw [log_apply, ih]
    cases st <;> first | exact List.append_nil _ | exact this.elim
  | @setting key sts rest ih =>
    cases hr : (Statement.deleteSetting key).refusal t' with
    | some r =>
      simp only [execute, hr]
      exact ⟨[], (List.append_nil _).symm, .refl t'⟩
    | none =>
      simp only [execute, hr]
      -- the setting is neither an account nor a session
      obtain ⟨events, hlog, htells⟩ := @ih ((Statement.deleteSetting key).apply t') husers
        hsessions follows
      exact ⟨events, hlog, htells.opened, htells.changed, htells.started, htells.ended⟩
  | event follow sure => exact ⟨_, tells_event (follows follow) sure⟩
  | @after st e before after told silent follow touch sure =>
    cases hr : st.refusal t' with
    | some r =>
      have hstop : (execute (st :: before ++ .insertAuthEvent e :: after) t').tables = t' := by
        simp only [List.cons_append, execute, hr]
      rw [hstop]
      exact ⟨[], (List.append_nil _).symm, .refl t'⟩
    | none =>
      exact ⟨_, tells_after (told_congr husers hsessions told) silent (follows follow) touch hr
        (sure t' hr)⟩

end Execution

end store

namespace console

/-! ## The handlers -/

/-- The texts of a request that its event is written with can be bound. -/
structure Pending.Writes (p : Pending) : Prop where
  clientIp : bindError (.str p.request.clientIp) = none
  email : ∀ s, p.snapshot = some s → bindError (.str s.user.email) = none

section Handlers
variable {prim : Primitives} {t : Tables} {limiter : Limiter} {p : Pending} {request : Request}
  {snapshot : Option Snapshot} {form : Form} {input : Input}

theorem bindError_kind (kind : AuthEventKind) : bindError (.str kind.text) = none := by
  cases kind <;> exact bindError_ascii (by decide)

theorem record_accepted (hip : bindError (.str request.clientIp) = none) {email : Str}
    (hemail : bindError (.str email) = none) (kind : AuthEventKind) (userId : Option Int)
    (t : Tables) : (record request kind email userId input).refusal t = none := by
  simp only [record, Statement.refusal, Statement.parameters, List.findSome?_cons,
    bindError_unixMs, hemail, bindError_kind, hip, List.findSome?_nil, Statement.violation]

theorem startSession_ip {userId : Nat} {row : Session}
    (h : startSession prim request userId input = .ok (.createSession row)) :
    row.userId = userId ∧ row.ip = request.clientIp := by
  unfold startSession at h
  split at h
  · cases h
  · split at h
    · cases h
    · obtain rfl := Statement.createSession.inj (Except.ok.inj h)
      exact ⟨rfl, rfl⟩

theorem withSession_statements (prim : Primitives) (request : Request) (userId : Nat)
    (input : Input) (statements : List Statement) (location : Str) :
    (withSession prim request userId input statements location).statements = statements ∨
      ∃ row, row.userId = userId ∧ row.ip = request.clientIp ∧
        (withSession prim request userId input statements location).statements =
          statements ++ [.createSession row] := by
  unfold withSession
  cases hstart : startSession prim request userId input with
  | error e => exact .inl rfl
  | ok st =>
    obtain ⟨row, rfl, -⟩ := startSession_eq_ok hstart
    obtain ⟨huser, hip⟩ := startSession_ip hstart
    exact .inr ⟨row, huser, hip, rfl⟩

theorem handleLogin_filed (hip : bindError (.str request.clientIp) = none) :
    Filed t (handleLogin prim t request form input limiter).statements := by
  unfold handleLogin loginTraced
  simp only
  split
  · exact .nil
  · exact .nil
  · simp only [authenticate]
    split
    · exact .nil
    · next hemail =>
      have sure := @record_accepted request input hip _ hemail
      split
      · split
        · exact .nil
        · exact .event (List.forall_mem_nil _) (sure _ _)
      · split
        · exact .event (List.forall_mem_nil _) (sure _ _)
        · split
          · exact .nil
          · exact .event (List.forall_mem_nil _) (sure _ _)
          · unfold loggedIn
            simp only
            split
            · exact .event (List.forall_mem_nil _) (sure _ _)
            · rcases withSession_statements prim request _ input _ _ with
                hsts | ⟨row, huser, hrowip, hsts⟩
              · rw [hsts]
                exact .event (List.forall_mem_nil _) (sure _ _)
              · rw [hsts]
                refine .event ?_ (sure _ _)
                intro st hst
                rw [List.mem_singleton.mp hst]
                exact ⟨⟨.inl rfl, by rw [huser], hrowip.symm⟩, trivial⟩

theorem createUser_bound {email passwordHash : Str} {role : Role} {createdAt : Int}
    (haccepted : (Statement.createUser email passwordHash role createdAt).refusal t = none) :
    bindError (.str email) = none := by
  unfold Statement.refusal at haccepted
  cases hb : bindError (.str email) with
  | none => rfl
  | some e => simp [Statement.parameters, hb] at haccepted

theorem filed_createUser (hip : bindError (.str request.clientIp) = none)
    {email passwordHash : Str} {role : Role} {createdAt : Int} {after : List Statement}
    (follow : ∀ st ∈ after, st.Follows t ⟨input.logged.unixMs, some t.users.nextId, email,
      .userCreate, request.clientIp⟩) :
    Filed t (.createUser email passwordHash role createdAt ::
      record request .userCreate email (some t.users.nextId) input :: after) := by
  refine @Filed.after t _ _ [] after ⟨rfl, rfl, rfl⟩ rfl follow nofun ?_
  intro t' haccepted st hst t''
  -- the address was bound already
  rw [List.mem_singleton.mp hst]
  exact record_accepted hip (createUser_bound haccepted) _ _ t''

theorem handleSignup_filed (hip : bindError (.str request.clientIp) = none) :
    Filed t (handleSignup prim t request form input).statements := by
  rcases handleSignup_statements prim t request form input with
    hsts | ⟨email, passwordHash, -, -, -, hsts⟩
  · rw [hsts]
    exact .nil
  · rw [hsts]
    rcases withSession_statements prim request t.users.nextId input _ _ with
      hsts' | ⟨row, huser, hrowip, hsts'⟩
    · rw [hsts']
      exact filed_createUser hip nofun
    · rw [hsts']
      refine filed_createUser hip ?_
      intro st hst
      rw [List.mem_singleton.mp hst]
      exact ⟨⟨.inr rfl, by rw [huser], hrowip.symm⟩, trivial⟩

theorem handleUserCreate_filed (hip : bindError (.str request.clientIp) = none) :
    Filed t (handleUserCreate prim t request snapshot form input).statements := by
  apply requireCsrf_induction (P := fun plan => Filed t plan.statements) (fun _ => .nil)
  intro s hs hcsrf
  simp only
  split
  · exact .nil
  · split
    · exact .nil
    · split
      · exact .nil
      · split
        · exact .nil
        · exact filed_createUser hip nofun

theorem filed_delete {st : Statement} {email : Str} {kind : AuthEventKind} {userId : Option Int}
    (hip : bindError (.str request.clientIp) = none) (hemail : bindError (.str email) = none)
    (told : st.ToldBy t ⟨input.logged.unixMs, userId, email, kind, request.clientIp⟩)
    (quiet : st.Quiet) : Filed t [st, record request kind email userId input] := by
  refine @Filed.after t _ _ [] [] told ?_ nofun ?_ ?_
  · cases st <;> first | rfl | exact quiet.elim
  · rintro id lastSeenAt rfl
    exact quiet
  · intro t' _ st' hst' t''
    rw [List.mem_singleton.mp hst']
    exact record_accepted hip hemail kind userId t''

theorem filed_password {uid : Int} {passwordHash email : Str} {keep : Nat}
    (hip : bindError (.str request.clientIp) = none) (hemail : bindError (.str email) = none) :
    Filed t [.updatePasswordHash uid passwordHash, .deleteSessionsForUserExcept uid keep,
      record request .passwordChange email (some uid) input] := by
  refine @Filed.after t _ _ [.deleteSessionsForUserExcept uid keep] [] ⟨rfl, rfl⟩ rfl ?_ nofun ?_
  · intro st hst
    rw [List.mem_singleton.mp hst]
    exact ⟨⟨.inr rfl, rfl⟩, trivial⟩
  · intro t' haccepted st hst t''
    have huid : bindError (.int uid) = none := by
      unfold Statement.refusal at haccepted
      cases hb : bindError (.int uid) with
      | none => rfl
      | some e =>
        cases hh : bindError (.str passwordHash) with
        | none => simp [Statement.parameters, hb, hh] at haccepted
        | some e' => simp [Statement.parameters, hh] at haccepted
    simp only [List.cons_append, List.nil_append, List.mem_cons, List.not_mem_nil, or_false] at hst
    rcases hst with rfl | rfl
    · simp only [Statement.refusal, Statement.parameters, List.findSome?_cons, huid,
        List.findSome?_nil, Statement.violation]
    · exact record_accepted hip hemail _ _ t''

theorem handleResetPassword_filed (hip : bindError (.str request.clientIp) = none) :
    Filed t (handleResetPassword prim t request form input).statements := by
  unfold handleResetPassword
  split
  · exact .nil
  · split
    · exact .nil
    · next statements hconsume =>
      rcases consumeResetToken_statements hconsume with rfl | ⟨rfl, -⟩
      · exact .setting .nil
      · exact .nil
    · next statements hconsume =>
      rcases consumeResetToken_statements hconsume with rfl | ⟨-, hfalse⟩
      · unfold resetPassword
        simp only
        split
        · exact .setting .nil
        · split
          · exact .setting .nil
          · split
            · exact .setting .nil
            · exact .setting (filed_password hip (bindError_ascii rfl))
      · cases hfalse

theorem handlePasswordChange_filed (hip : bindError (.str request.clientIp) = none)
    (hemail : ∀ s, snapshot = some s → bindError (.str s.user.email) = none) :
    Filed t (handlePasswordChange prim request snapshot form input).statements := by
  apply requireCsrf_induction (P := fun plan => Filed t plan.statements) (fun _ => .nil)
  intro s hs _
  simp only
  split
  · exact .nil
  · exact .nil
  · split
    · exact .nil
    · split
      · exact .nil
      · split
        · exact .nil
        · exact filed_password hip (hemail s hs)

theorem Effect.apart {h : Handler} {sts : List Statement}
    (heff : Effect prim t request snapshot form input h sts)
    (hh : h ∉ [.login, .signup, .logout, .resetPassword, .passwordChange, .sessionRevokeOthers,
      .userCreate] ∧ ∀ target, h ≠ .sessionRevoke target) : ∀ st ∈ sts, st.Apart := by
  obtain ⟨hmem, hrevoke⟩ := hh
  cases heff with
  | nothing => exact nofun
  | userDeactivate =>
    intro st hst
    rw [List.mem_singleton.mp hst]
    exact trivial
  | configured s given auth st acts configures =>
    intro st' hst'
    rw [List.mem_singleton.mp hst']
    cases st <;> first | exact trivial | exact configures.elim
  | sessionRevoke => exact absurd rfl (hrevoke _)
  | _ => simp at hmem

/-- Every handler files its event. -/
theorem plan_filed (hp : p.Writes) : Filed t (plan prim t limiter p form input).statements := by
  have heff := plan_effect prim t limiter p form input
  obtain ⟨handler, request, snapshot, entered, passed⟩ := p
  obtain ⟨hip, hemail⟩ := hp
  cases handler with
  | login => exact handleLogin_filed hip
  | signup => exact handleSignup_filed hip
  | logout =>
    apply requireCsrf_induction (P := fun plan => Filed t plan.statements) (fun _ => .nil)
    intro s hs _
    exact filed_delete hip (hemail s hs) (.inl rfl) trivial
  | resetPassword => exact handleResetPassword_filed hip
  | passwordChange => exact handlePasswordChange_filed hip hemail
  | sessionRevoke target =>
    apply requireCsrf_induction (P := fun plan => Filed t plan.statements) (fun _ => .nil)
    intro s hs _
    simp only
    split
    · next hown =>
      refine filed_delete hip (hemail s hs) (.inr ⟨rfl, ?_⟩) trivial
      intro row hrow
      rw [hrow, Option.any_some, beq_iff_eq] at hown
      rw [hown]
    · exact .nil
  | sessionRevokeOthers =>
    apply requireCsrf_induction (P := fun plan => Filed t plan.statements) (fun _ => .nil)
    intro s hs _
    exact filed_delete hip (hemail s hs) ⟨.inl rfl, rfl⟩ trivial
  | userCreate => exact handleUserCreate_filed hip
  | retentionChange => exact .apart (heff.apart ⟨by simp, nofun⟩)
  | userDeactivate target => exact .apart (heff.apart ⟨by simp, nofun⟩)
  | endpointCreate => exact .apart (heff.apart ⟨by simp, nofun⟩)
  | endpointUpdate id => exact .apart (heff.apart ⟨by simp, nofun⟩)
  | endpointDelete id post => exact .apart (heff.apart ⟨by simp, nofun⟩)
  | endpointToggleActive id => exact .apart (heff.apart ⟨by simp, nofun⟩)
  | view => exact .nil

end Handlers

/-! ## Over whole runs -/

/-- The address of a request that arrives can be bound. -/
def Bound : Action → Prop
  | .arrive _ _ request _ => bindError (.str request.clientIp) = none
  | _ => True

/-- What the requests write can be bound, and the addresses of the accounts. -/
structure Writable (σ : State) : Prop where
  users : ∀ id user, σ.tables.users.get id = some user → bindError (.str user.email) = none
  pending : ∀ j q, σ.pending j = some q → q.Writes

section Runs
variable {prim : Primitives} {allowSignup : Bool} {σ σ' : State} {a : Action}

theorem users_bound {sts : List Statement} {t : Tables}
    (h : ∀ id user, t.users.get id = some user → bindError (.str user.email) = none) :
    ∀ id user, (execute sts t).tables.users.get id = some user →
      bindError (.str user.email) = none := by
  refine execute_induction (P := fun t => ∀ id user, t.users.get id = some user →
    bindError (.str user.email) = none) ?_ h
  intro st hst t ih haccepted id user hget
  rcases Statement.user_origin hget with ⟨-, createdAt, rfl⟩ | ⟨before, hbefore, hemail, -⟩
  · exact createUser_bound haccepted
  · rw [hemail]
    exact ih id before hbefore

theorem Stepped.writable (h : Stepped prim σ a σ') (hbound : Bound a) (hw : Writable σ) :
    Writable σ' where
  users := by
    obtain ⟨sts, htables, -⟩ := h.statements
    rw [htables]
    exact users_bound hw.users
  pending j q hq := by
    rcases h.pending_origin hq with ⟨q₀, hq₀, -, hrequest, hsnapshot⟩ | ⟨now, rfl, -, hl⟩
    · obtain ⟨hip, hemail⟩ := hw.pending j q₀ hq₀
      rw [hrequest] at hip
      rw [hsnapshot] at hemail
      exact ⟨hip, hemail⟩
    · refine ⟨hbound, ?_⟩
      intro s hs
      rw [hs] at hl
      exact hw.users _ _ hl.attached.1

theorem load_explained (prim : Primitives) (t : Tables) (request : Request) (now : Datetime) :
    (load prim t request now).1.log = t.log ∧ (load prim t request now).1.users = t.users ∧
      ∀ id, (t.sessions.get id = none → (load prim t request now).1.sessions.get id = none) ∧
        ∀ row, t.sessions.get id = some row → (load prim t request now).1.sessions.get id = none →
          presented prim request = .ok (some row.tokenHash) ∧ liveness row now = .ok .expired := by
  have same : ∀ id, (t.sessions.get id = none → t.sessions.get id = none) ∧
      ∀ row, t.sessions.get id = some row → t.sessions.get id = none →
        presented prim request = .ok (some row.tokenHash) ∧ liveness row now = .ok .expired := by
    intro id
    refine ⟨fun h => h, ?_⟩
    intro row hrow hnone
    cases hnone.symm.trans hrow
  unfold load
  split
  · exact ⟨rfl, rfl, same⟩
  · exact ⟨rfl, rfl, same⟩
  · next h hpresented =>
    split
    · exact ⟨rfl, rfl, same⟩
    · next id session hfind =>
      obtain ⟨hget, hhash⟩ := Sqlite.Table.find_eq_some hfind
      obtain rfl := beq_iff_eq.mp hhash
      cases hlive : liveness session now with
      | error e =>
        have hrefresh : refresh t id session now = (t, .error e) := by
          unfold refresh
          rw [hlive]
        rw [hrefresh]
        exact ⟨rfl, rfl, same⟩
      | ok l =>
        cases l with
        | expired =>
          rw [refresh_expired hlive]
          refine ⟨rfl, rfl, ?_⟩
          intro id'
          simp only [Statement.apply, Sqlite.Table.get_delete]
          refine ⟨?_, ?_⟩
          · intro hnone
            rw [hnone]
            rfl
          · intro row hrow hgone
            -- the one row that is deleted
            by_cases hid : id' = id
            · subst hid
              obtain rfl := Option.some.inj (hrow.symm.trans hget)
              exact ⟨hpresented, hlive⟩
            · simp [hrow, hid] at hgone
        | live touch =>
          rw [refresh_live hlive]
          cases touch with
          | false => exact ⟨rfl, rfl, same⟩
          | true =>
            refine ⟨rfl, rfl, ?_⟩
            intro id'
            simp only [if_true, Statement.apply, Sqlite.Table.get_update]
            refine ⟨?_, ?_⟩
            · intro hnone
              rw [hnone]
              rfl
            · intro row hrow hgone
              simp [hrow] at hgone

/-- A step that is no arrival tells, of accounts and sessions, what it makes of them. -/
theorem Stepped.tells (h : Stepped prim σ a σ') (hw : Writable σ)
    (harrive : ∀ i handler request now, a ≠ .arrive i handler request now) :
    ∃ events, σ'.tables.log = σ.tables.log ++ events ∧ Tells σ.tables σ'.tables events := by
  have unchanged (htables : σ'.tables = σ.tables) : ∃ events,
      σ'.tables.log = σ.tables.log ++ events ∧ Tells σ.tables σ'.tables events := by
    rw [htables]
    exact ⟨[], (List.append_nil _).symm, .refl _⟩
  cases h with
  | arrived => exact absurd rfl (harrive _ _ _ _)
  | entered was passed tables => exact unchanged tables
  | resumed was tables =>
    rw [tables]
    have hwrites := hw.pending _ _ (State.suspended_eq_some.mp was).1
    exact (plan_filed hwrites).tells rfl rfl
  | dropped tables => exact unchanged tables
  | minted tables =>
    rw [tables]
    refine Filed.tells (.apart ?_) rfl rfl
    intro st hst
    obtain ⟨key, value, rfl⟩ := mintReset_sets hst
    exact trivial
  | stayed tables => exact unchanged tables

end Runs

end console
end HookGuard
