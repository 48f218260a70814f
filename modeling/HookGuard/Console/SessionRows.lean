import HookGuard.Console.Interleaving

/- The row of a session's token (`SessionMiddleware._load`, `_start_session`,
   `store/sessions.py`), and what each part of the Console leaves of it.

   A token has one row at most, as another of its hash is refused. The middleware touches
   the row or deletes it (`refresh_live`, `refresh_expired`), a handler deletes it or starts
   the session (`step_resume_rows`), and no other step changes it (`Stepped.agree`). -/
namespace HookGuard
open Py store auth

namespace store

/-! ## The row of a token -/

/-- The one row of the hash. -/
structure Sole (t : Tables) (h : Bytes) (id : Nat) (row : Session) : Prop where
  found : t.sessions.get id = some row
  hash : row.tokenHash = h
  only : ∀ id' row', t.sessions.get id' = some row' → row'.tokenHash = h → id' = id

/-- No row has the hash. -/
def Missing (t : Tables) (h : Bytes) : Prop :=
  ∀ id row, t.sessions.get id = some row → row.tokenHash ≠ h

/-- The tables have the same rows of the hash. -/
def Agree (t t' : Tables) (h : Bytes) : Prop :=
  ∀ id row, row.tokenHash = h → (t'.sessions.get id = some row ↔ t.sessions.get id = some row)

section Rows
variable {t t' : Tables} {h : Bytes} {id : Nat} {row : Session}

theorem Agree.refl (t : Tables) (h : Bytes) : Agree t t h := fun _ _ _ => Iff.rfl

theorem Agree.missing (hag : Agree t t' h) (hm : Missing t h) : Missing t' h := by
  intro id row hget hhash
  exact hm id row ((hag id row hhash).mp hget) hhash

theorem Agree.sole (hag : Agree t t' h) (hs : Sole t h id row) : Sole t' h id row where
  found := (hag id row hs.hash).mpr hs.found
  hash := hs.hash
  only id' row' hget hhash := hs.only id' row' ((hag id' row' hhash).mp hget) hhash

theorem sessionByTokenHash_eq_none : t.sessionByTokenHash h = none ↔ Missing t h := by
  unfold Tables.sessionByTokenHash Missing
  rw [Sqlite.Table.find_eq_none]
  simp only [beq_eq_false_iff_ne]

theorem Sole.sessionByTokenHash (hs : Sole t h id row) :
    t.sessionByTokenHash h = some (id, row) := by
  cases hfind : t.sessionByTokenHash h with
  | none => exact absurd hs.hash (sessionByTokenHash_eq_none.mp hfind id row hs.found)
  | some found =>
    obtain ⟨id', row'⟩ := found
    obtain ⟨hget, hhash⟩ := Sqlite.Table.find_eq_some hfind
    obtain rfl := hs.only id' row' hget (beq_iff_eq.mp hhash)
    rw [Option.some.inj (hget.symm.trans hs.found)]

theorem execute_agree {sts : List Statement}
    (hwrites : ∀ st ∈ sts, ∀ id row, t.sessions.get id = some row → row.tokenHash = h →
      ¬ st.WritesSession id row)
    (hcreates : ∀ st ∈ sts, ∀ row, st = .createSession row → row.tokenHash ≠ h) :
    Agree t (execute sts t).tables h := by
  refine execute_induction (P := fun t' => Agree t t' h) ?_ (.refl t h)
  intro st hst t' hag _ id row hhash
  refine ⟨?_, ?_⟩
  · intro hget
    rcases Statement.session_origin hget with ⟨hcreate, -⟩ | ⟨before, hbefore, rfl | htouch⟩
    · exact absurd hhash (hcreates st hst row hcreate)
    · exact (hag id row hhash).mp hbefore
    · obtain ⟨lastSeenAt, rfl, rfl⟩ := htouch
      exact absurd rfl (hwrites _ hst id before ((hag id before hhash).mp hbefore) hhash)
  · intro hget
    exact Statement.session_kept ((hag id row hhash).mpr hget) (hwrites st hst id row hget hhash)

/-- A session whose hash is there already is refused. -/
theorem missing_of_createSession (haccepted : (Statement.createSession row).refusal t = none) :
    Missing t row.tokenHash := by
  rw [← sessionByTokenHash_eq_none]
  unfold Statement.refusal at haccepted
  split at haccepted
  · cases haccepted
  · unfold Statement.violation at haccepted
    simp only at haccepted
    split at haccepted
    · cases haccepted
    · next hnone => simpa using hnone

/-- A statement that touches no session leaves the row of a hash, or deletes it; and where
    there is none, only a new one is of the hash. -/
theorem Statement.rows {st : Statement} (htouch : ∀ id lastSeenAt, st ≠ .touchSession id lastSeenAt)
    (haccepted : st.refusal t = none) (hrows : Missing t h ∨ ∃ id row, Sole t h id row) :
    Missing (st.apply t) h ∨ ∃ id row, Sole (st.apply t) h id row ∧
      (Sole t h id row ∨ st = .createSession row) := by
  by_cases hmissing : Missing (st.apply t) h
  · exact .inl hmissing
  unfold Missing at hmissing
  push Not at hmissing
  obtain ⟨id, row, hget, hhash⟩ := hmissing
  refine .inr ⟨id, row, ?_⟩
  -- of every row of the hash: it is new, or was there
  have horigin : ∀ {id' row'}, (st.apply t).sessions.get id' = some row' →
      st = .createSession row' ∧ id' = t.sessions.nextId ∨ t.sessions.get id' = some row' := by
    intro id' row' hget'
    rcases Statement.session_origin hget' with hnew | ⟨before, hbefore, rfl | ⟨lastSeenAt, rfl, -⟩⟩
    · exact .inl hnew
    · exact .inr hbefore
    · exact absurd rfl (htouch _ _)
  rcases horigin hget with ⟨rfl, rfl⟩ | hbefore
  · have hnone := missing_of_createSession haccepted
    refine ⟨⟨hget, hhash, ?_⟩, .inr rfl⟩
    intro id' row' hget' hhash'
    rcases horigin hget' with ⟨-, hid⟩ | hold
    · exact hid
    · exact absurd (hhash'.trans hhash.symm) (hnone id' row' hold)
  · obtain ⟨id₀, row₀, hsole⟩ := hrows.resolve_left fun hm => hm id row hbefore hhash
    obtain rfl := hsole.only id row hbefore hhash
    obtain rfl := Option.some.inj (hbefore.symm.trans hsole.found)
    refine ⟨⟨hget, hhash, ?_⟩, .inl hsole⟩
    intro id' row' hget' hhash'
    rcases horigin hget' with ⟨rfl, -⟩ | hold
    · exact absurd (hhash.trans hhash'.symm) (missing_of_createSession haccepted id row hbefore)
    · exact hsole.only id' row' hold hhash'

theorem execute_rows {sts : List Statement}
    (htouch : ∀ st ∈ sts, ∀ id lastSeenAt, st ≠ .touchSession id lastSeenAt)
    (hrows : Missing t h ∨ ∃ id row, Sole t h id row) :
    Missing (execute sts t).tables h ∨ ∃ id row, Sole (execute sts t).tables h id row ∧
      (Sole t h id row ∨ .createSession row ∈ sts) := by
  refine execute_induction (P := fun t' => Missing t' h ∨ ∃ id row, Sole t' h id row ∧
    (Sole t h id row ∨ .createSession row ∈ sts)) ?_ ?_
  · intro st hst t' ih haccepted
    have hrows' : Missing t' h ∨ ∃ id row, Sole t' h id row :=
      ih.imp_right fun ⟨id, row, hsole, _⟩ => ⟨id, row, hsole⟩
    refine (Statement.rows (htouch st hst) haccepted hrows').imp_right ?_
    rintro ⟨id, row, hsole, hbefore | rfl⟩
    · refine ⟨id, row, hsole, ?_⟩
      obtain ⟨id', row', hsole', horigin⟩ :=
        ih.resolve_left fun hm => hm id row hbefore.found hbefore.hash
      obtain rfl := hbefore.only id' row' hsole'.found hsole'.hash
      obtain rfl := Option.some.inj (hsole'.found.symm.trans hbefore.found)
      exact horigin
    · exact ⟨id, row, hsole, .inr hst⟩
  · exact hrows.imp_right fun ⟨id, row, hsole⟩ => ⟨id, row, hsole, .inl hsole⟩

theorem Sole.deleted (hs : Sole t h id row) : Missing ((Statement.deleteSession id).apply t) h := by
  intro id' row' hget hhash
  simp only [Statement.apply, Sqlite.Table.get_delete] at hget
  obtain ⟨hbefore, hother⟩ := Option.filter_eq_some_iff.mp hget
  obtain rfl := hs.only id' row' hbefore hhash
  simp at hother

theorem Sole.touched (hs : Sole t h id row) (lastSeenAt : Int) :
    Sole ((Statement.touchSession id lastSeenAt).apply t) h id { row with lastSeenAt } where
  found := by simp [Statement.apply, Sqlite.Table.get_update, hs.found]
  hash := hs.hash
  only id' row' hget hhash := by
    simp only [Statement.apply, Sqlite.Table.get_update] at hget
    obtain ⟨before, hbefore, hrow⟩ := Option.map_eq_some_iff.mp hget
    refine hs.only id' before hbefore ?_
    split at hrow
    · rw [← hrow] at hhash
      exact hhash
    · rw [hrow, hhash]

end Rows

end store

namespace console

/-! ## What the middleware makes of the row -/

section Middleware
variable {prim : Primitives} {allowSignup : Bool} {t : Tables} {h : Bytes} {id : Nat}
  {row : Session} {request : Request} {now : Datetime}

theorem liveness_eq {expiresAt lastSeen idle : Datetime}
    (hexpires : Datetime.fromUnixMs row.expiresAt = some expiresAt)
    (hseen : Datetime.fromUnixMs row.lastSeenAt = some lastSeen)
    (hidle : lastSeen.add SESSION_IDLE_TIMEOUT = some idle) :
    liveness row now =
      if expiresAt.us < now.us ∨ lastSeen.us + SESSION_IDLE_TIMEOUT < now.us then .ok .expired
      else .ok (.live (TOUCH_INTERVAL < now.us - lastSeen.us)) := by
  have hus : idle.us = lastSeen.us + SESSION_IDLE_TIMEOUT := Datetime.ofMicroseconds_eq_some hidle
  unfold liveness
  simp only [hexpires, hseen, hidle, hus]
  by_cases hcap : expiresAt.us < now.us
  · simp only [hcap, if_true, true_or]
  · simp only [hcap, if_false, false_or]

theorem refresh_expired (hlive : liveness row now = .ok .expired) :
    refresh t id row now = ((Statement.deleteSession id).apply t, .ok none) := by
  unfold refresh
  simp only [hlive]
  rfl

theorem refresh_live {touch : Bool} (hlive : liveness row now = .ok (.live touch)) :
    refresh t id row now =
      (if touch then (Statement.touchSession id now.unixMs).apply t else t,
        .ok (attach t id row)) := by
  unfold refresh
  simp only [hlive]
  cases touch with
  | false => rfl
  | true =>
    have haccepted : (Statement.touchSession id now.unixMs).refusal t = none := by
      simp only [Statement.refusal, Statement.parameters, List.findSome?_cons, bindError_unixMs,
        List.findSome?_nil, Statement.violation]
    simp only [if_true, execute, haccepted]
    rfl

theorem load_missing (hpresented : presented prim request = .ok (some h)) (hm : Missing t h) :
    load prim t request now = (t, .ok none) := by
  unfold load
  simp only [hpresented, sessionByTokenHash_eq_none.mpr hm]

theorem load_sole (hpresented : presented prim request = .ok (some h))
    (hs : Sole t h id row) : load prim t request now = refresh t id row now := by
  unfold load
  simp only [hpresented, hs.sessionByTokenHash]

/-- The rows of a hash are as they were, where the request has another token. -/
theorem Loaded.agree {t' : Tables} {r : Except Exc (Option Snapshot)}
    (hl : Loaded prim t request now t' r) (hother : presented prim request ≠ .ok (some h)) :
    Agree t t' h := by
  -- the row that is found has another hash
  have other : ∀ {h' id session}, presented prim request = .ok (some h') →
      t.sessions.get id = some session → session.tokenHash = h' → ∀ id' row',
      t.sessions.get id' = some row' → row'.tokenHash = h → id' ≠ id := by
    rintro h' id session token found rfl id' row' hget hhash rfl
    obtain rfl := Option.some.inj (hget.symm.trans found)
    rw [hhash] at token
    exact hother token
  cases hl with
  | anonymous nobody tables => exact tables ▸ .refl _ _
  | expired nobody token found hash tables =>
    rw [tables]
    apply execute_agree
    · intro st hst
      rw [List.mem_singleton.mp hst]
      exact other token found hash
    · intro st hst row' hcreate
      rw [List.mem_singleton.mp hst] at hcreate
      cases hcreate
  | @live _ _ _ touch attached token found hash tables =>
    rw [tables]
    cases touch with
    | false => exact .refl _ _
    | true =>
      apply execute_agree
      · intro st hst
        rw [List.mem_singleton.mp hst]
        exact other token found hash
      · intro st hst row' hcreate
        rw [List.mem_singleton.mp hst] at hcreate
        cases hcreate

/-! ## What a step leaves of it -/

theorem step_arrive_tables {σ : State} {i : Nat} {handler : Handler}
    (hfree : σ.pending i = none) :
    (step prim allowSignup σ (.arrive i handler request now)).tables =
      (load prim σ.tables request now).1 := by
  unfold step
  simp only [hfree, Option.isSome_none, Bool.false_eq_true, if_false]
  rfl

theorem Stepped.agree {σ σ' : State} {a : Action} (hstep : Stepped prim σ a σ')
    (harrive : ∀ i handler request now, a = .arrive i handler request now →
      σ.pending i = none → presented prim request ≠ .ok (some h))
    (hresume : ∀ i form input, a ≠ .resume i form input) : Agree σ.tables σ'.tables h := by
  cases hstep with
  | arrived free loaded tables =>
    rw [tables]
    exact loaded.agree (harrive _ _ _ _ rfl free)
  | entered was passed tables =>
    rw [tables]
    exact .refl _ _
  | resumed => exact absurd rfl (hresume _ _ _)
  | dropped tables =>
    rw [tables]
    exact .refl _ _
  | minted tables =>
    rw [tables]
    apply execute_agree
    · intro st hst id row _ _
      obtain ⟨key, value, rfl⟩ := mintReset_sets hst
      exact fun h => h
    · intro st hst row hcreate
      obtain ⟨key, value, rfl⟩ := mintReset_sets hst
      cases hcreate
  | stayed tables =>
    rw [tables]
    exact .refl _ _

theorem Effect.sessions {snapshot : Option Snapshot} {form : Form} {input : Input}
    {handler : Handler} {sts : List Statement}
    (heff : Effect prim t request snapshot form input handler sts) :
    (∀ st ∈ sts, ∀ id lastSeenAt, st ≠ .touchSession id lastSeenAt) ∧
      ∀ row, .createSession row ∈ sts →
        ∃ uid, startSession prim request uid input = .ok (.createSession row) := by
  cases heff with
  | configured s given auth st acts configures =>
    refine ⟨?_, ?_⟩
    · intro st' hst' id lastSeenAt heq
      rw [List.mem_singleton.mp hst'] at heq
      rw [heq] at configures
      exact configures.elim
    · intro row hrow
      rw [← List.mem_singleton.mp hrow] at configures
      exact configures.elim
  | @login e id user session found active started =>
    refine ⟨by simp, ?_⟩
    intro row hrow
    simp only [List.mem_cons, List.not_mem_nil, or_false, reduceCtorEq, false_or] at hrow
    exact ⟨id, hrow ▸ started⟩
  | signup email passwordHash createdAt e started =>
    refine ⟨by simp, ?_⟩
    intro row hrow
    simp only [List.mem_cons, List.not_mem_nil, or_false, reduceCtorEq, false_or] at hrow
    exact ⟨_, hrow ▸ started⟩
  | _ => simp

theorem startSession_row {uid : Nat} {input : Input}
    (hstart : startSession prim request uid input = .ok (.createSession row)) :
    hashToken prim input.token = .ok row.tokenHash ∧ row.lastSeenAt = input.started.unixMs ∧
      ∃ expires, input.started.add SESSION_ABSOLUTE_TIMEOUT = some expires ∧
        row.expiresAt = expires.unixMs := by
  unfold startSession at hstart
  split at hstart
  · cases hstart
  · next tokenHash hhash =>
    split at hstart
    · cases hstart
    · next expires hexpires =>
      obtain rfl := Statement.createSession.inj (Except.ok.inj hstart)
      exact ⟨hhash, rfl, expires, hexpires, rfl⟩

/-- After a handler, the row of the token is the one that was there, or its new session. -/
theorem step_resume_rows (σ : State) {i : Nat} {form : Form} {input : Input}
    (hrows : Missing σ.tables h ∨ ∃ id row, Sole σ.tables h id row) {t' : Tables}
    (ht' : t' = (step prim allowSignup σ (.resume i form input)).tables) :
    Missing t' h ∨ ∃ id row, Sole t' h id row ∧ (Sole σ.tables h id row ∨
      ∃ request uid, startSession prim request uid input = .ok (.createSession row)) := by
  cases hp : σ.suspended i with
  | none =>
    have hsame : t' = σ.tables := by
      rw [ht']
      simp only [step, hp]
    rw [hsame]
    exact hrows.imp_right fun ⟨id, row, hsole⟩ => ⟨id, row, hsole, .inl hsole⟩
  | some p =>
    rw [ht', (step_resume_pending hp).2]
    obtain ⟨htouch, hcreate⟩ :=
      (plan_effect prim σ.tables σ.loginLimiter p form input).sessions
    refine (execute_rows htouch hrows).imp_right ?_
    rintro ⟨id, row, hsole, hbefore | hnew⟩
    · exact ⟨id, row, hsole, .inl hbefore⟩
    · exact ⟨id, row, hsole, .inr ⟨p.request, hcreate row hnew⟩⟩

end Middleware

end console
end HookGuard
