import HookGuard.Console.LogTruth
import HookGuard.Console.Migration

/- The Console's database holds together, over whole runs (`store/migrations`, and what no
   constraint of it says).

   Unique are the addresses, in the collation of their column, and the hashes of the tokens,
   so that a lookup finds the one row there is. A session is somebody's, and so are an event
   of the security log and a pending reset, which refer to a user without a foreign key.
   `Proper` is what a statement needs for that, of the tables it is executed from
   (`Integrity.apply`); an account that is opened is there for the event behind it. -/
namespace HookGuard
open Py store auth Runs

namespace store

/-- The number is the id of a user. -/
def Known (t : Tables) (n : Int) : Prop := ∃ (id : Nat) (user : User), n = id ∧
  t.users.get id = some user

structure Integrity (t : Tables) : Prop where
  addresses : t.users.Unique fun u u' => sameNocase u.email u'.email = true
  tokens : t.sessions.Unique fun s s' => s.tokenHash = s'.tokenHash
  owners : ∀ id row, t.sessions.get id = some row → Known t row.userId
  events : ∀ e ∈ t.log, ∀ n, e.userId = some n → Known t n
  resets : ∀ uid value, t.setting (console.resetKey uid) = some value → Known t uid
  retention : ∀ value, t.setting (lit "retention_days") = some value →
    ∃ days : Int, 1 ≤ days ∧ value = intStr days

/-- Whom an event or a pending reset is of is there, and a retention is a number of days. -/
def Statement.Proper (t : Tables) : Statement → Prop
  | insertAuthEvent e => ∀ n, e.userId = some n → Known t n
  | setSetting key value => (∀ uid, key = console.resetKey uid → Known t uid) ∧
      (key = lit "retention_days" → ∃ days : Int, 1 ≤ days ∧ value = intStr days)
  | _ => True

section Statements
variable {t : Tables} {st : Statement} {sts : List Statement}

theorem sameNocase_symm {s s' : Str} (h : sameNocase s s' = true) : sameNocase s' s = true := by
  unfold sameNocase at *
  rw [beq_iff_eq] at *
  exact h.symm

theorem Known.apply {n : Int} (h : Known t n) (st : Statement) : Known (st.apply t) n := by
  obtain ⟨id, user, hn, hget⟩ := h
  obtain ⟨user', hget', -⟩ := Statement.user_persists st hget
  exact ⟨id, user', hn, hget'⟩

theorem Proper.apply (h : st.Proper t) (st' : Statement) : st.Proper (st'.apply t) := by
  cases st with
  | insertAuthEvent e => exact fun n hn => (h n hn).apply st'
  | setSetting key value => exact ⟨fun uid hkey => (h.1 uid hkey).apply st', h.2⟩
  | _ => exact trivial

theorem addresses_apply (h : Integrity t) (haccepted : st.refusal t = none) :
    (st.apply t).users.Unique fun u u' => sameNocase u.email u'.email = true := by
  cases st with
  | createUser email passwordHash role createdAt =>
    apply h.addresses.insert
    intro id old hold
    have hnone : t.userByEmail email = none := by
      unfold Statement.refusal at haccepted
      split at haccepted
      · cases haccepted
      · simpa [Statement.violation] using haccepted
    have hother := Sqlite.Table.find_eq_none.mp hnone id old hold
    rw [hother]
    refine ⟨Bool.false_ne_true, ?_⟩
    intro hsame
    rw [sameNocase_symm hsame] at hother
    cases hother
  | updatePasswordHash userId passwordHash => exact h.addresses.update fun _ _ => ⟨id, id⟩
  | setUserActive userId active => exact h.addresses.update fun _ _ => ⟨id, id⟩
  | _ => exact h.addresses

theorem tokens_apply (h : Integrity t) (haccepted : st.refusal t = none) :
    (st.apply t).sessions.Unique fun s s' => s.tokenHash = s'.tokenHash := by
  cases st with
  | createSession s =>
    apply h.tokens.insert
    intro id old hold
    have hnone : t.sessionByTokenHash s.tokenHash = none := by
      unfold Statement.refusal at haccepted
      split at haccepted
      · cases haccepted
      · simp only [Statement.violation] at haccepted
        split at haccepted
        · cases haccepted
        · next hsome => simpa using hsome
    have hother := beq_eq_false_iff_ne.mp (Sqlite.Table.find_eq_none.mp hnone id old hold)
    exact ⟨hother, fun heq => hother heq.symm⟩
  | touchSession sessionId lastSeenAt => exact h.tokens.update fun _ _ => ⟨id, id⟩
  | deleteSession sessionId => exact h.tokens.delete _
  | deleteSessionsForUserExcept userId keepId => exact h.tokens.delete _
  | _ => exact h.tokens

theorem owners_apply (h : Integrity t) (haccepted : st.refusal t = none) {id : Nat}
    {row : Session} (hget : (st.apply t).sessions.get id = some row) :
    Known (st.apply t) row.userId := by
  rcases Statement.session_origin hget with ⟨rfl, -⟩ | ⟨before, hbefore, rfl | ⟨_, -, rfl⟩⟩
  · -- the foreign key
    unfold Statement.refusal at haccepted
    split at haccepted
    · cases haccepted
    · simp only [Statement.violation] at haccepted
      split at haccepted
      · cases haccepted
      · split at haccepted
        · cases haccepted
        · next hsome =>
          obtain ⟨user, huser⟩ := Option.ne_none_iff_exists'.mp (by simpa using hsome)
          exact ⟨row.userId, user, rfl, huser⟩
  · exact (h.owners id row hbefore).apply st
  · exact (h.owners id before hbefore).apply st

theorem resets_apply (h : Integrity t) (hproper : st.Proper t) {uid : Int} {value : Str}
    (hget : (st.apply t).setting (console.resetKey uid) = some value) :
    Known (st.apply t) uid := by
  by_cases hwrites : console.WritesSetting (console.resetKey uid) st
  · cases st with
    | setSetting key value' => exact (hproper.1 uid hwrites).apply _
    | deleteSetting key =>
      obtain rfl : key = console.resetKey uid := hwrites
      simp [Tables.setting, Statement.apply] at hget
    | _ => exact hwrites.elim
  · rw [console.setting_kept hwrites] at hget
    exact (h.resets uid value hget).apply st

theorem retention_apply (h : Integrity t) (hproper : st.Proper t) {value : Str}
    (hget : (st.apply t).setting (lit "retention_days") = some value) :
    ∃ days : Int, 1 ≤ days ∧ value = intStr days := by
  by_cases hwrites : console.WritesSetting (lit "retention_days") st
  · cases st with
    | setSetting key value' =>
      obtain rfl : key = lit "retention_days" := hwrites
      obtain rfl : value' = value := by
        simpa [Tables.setting, Statement.apply] using hget
      exact hproper.2 rfl
    | deleteSetting key =>
      obtain rfl : key = lit "retention_days" := hwrites
      simp [Tables.setting, Statement.apply] at hget
    | _ => exact hwrites.elim
  · rw [console.setting_kept hwrites] at hget
    exact h.retention value hget

/-- A statement that is accepted and proper keeps the database together. -/
theorem Integrity.apply (h : Integrity t) (haccepted : st.refusal t = none)
    (hproper : st.Proper t) : Integrity (st.apply t) where
  addresses := addresses_apply h haccepted
  tokens := tokens_apply h haccepted
  owners _ _ := owners_apply h haccepted
  events e he n hn := by
    rw [log_apply, List.mem_append] at he
    rcases he with he | he
    · exact (h.events e he n hn).apply st
    · cases st with
      | insertAuthEvent e' =>
        obtain rfl : e = e' := by simpa [Statement.event] using he
        exact (hproper n hn).apply _
      | _ => cases he
  resets _ _ := resets_apply h hproper
  retention _ := retention_apply h hproper

theorem Integrity.execute (h : Integrity t) (hproper : ∀ st ∈ sts, st.Proper t) :
    Integrity (execute sts t).tables := by
  refine (execute_induction (P := fun t' => Integrity t' ∧ ∀ st ∈ sts, st.Proper t') ?_
    ⟨h, hproper⟩).1
  rintro st hst t' ⟨ih, hall⟩ haccepted
  exact ⟨ih.apply haccepted (hall st hst), fun st' hst' => Proper.apply (hall st' hst') st⟩

theorem integrity_empty : Integrity {} where
  addresses := Sqlite.Table.unique_empty
  tokens := Sqlite.Table.unique_empty
  owners _ _ h := by cases h
  events _ h := by cases h
  resets _ _ h := by cases h
  retention _ h := by cases h

end Statements
end store

namespace console

section Handlers
variable {prim : Primitives} {t : Tables} {limiter : Limiter} {p : Pending} {form : Form}
  {input : Input}

theorem plan_setSetting {key value : Str}
    (h : .setSetting key value ∈ (plan prim t limiter p form input).statements) :
    key = lit "retention_days" ∧ ∃ days : Int, 1 ≤ days ∧ value = intStr days := by
  have hhandler : p.handler = .retentionChange := by
    have hconfigured := plan_configured prim t limiter p form input _ h trivial
    generalize p.handler = handler at hconfigured
    cases hconfigured
    rfl
  unfold plan at h
  rw [hhandler] at h
  obtain ⟨s, -, h⟩ := requireCsrf_statements h
  split at h
  · cases h
  · next days _ =>
    split at h
    · cases h
    · next hdays =>
      obtain ⟨rfl, rfl⟩ := Statement.setSetting.inj (List.mem_singleton.mp h)
      exact ⟨rfl, days, by omega, rfl⟩

theorem Recorded.known {before : List Statement} {e : AuthEvent}
    (h : Recorded prim t p form input before e) (hintegrity : Integrity t)
    (hactor : ∀ s, p.snapshot = some s → Known t s.userId) :
    (∀ n, e.userId = some n → Known t n) ∨
      ∃ email passwordHash role createdAt,
        before = [.createUser email passwordHash role createdAt] ∧
          e.userId = some (t.users.nextId : Int) := by
  have found : ∀ {id : Nat} {user : User} {email : Str}, t.userByEmail email = some (id, user) →
      ∀ n, some (id : Int) = some n → Known t n := by
    rintro id user email hfind n ⟨⟩
    exact ⟨id, user, rfl, (Sqlite.Table.find_eq_some hfind).1⟩
  have actor : ∀ {s : Snapshot}, Authorized p.request p.snapshot form s →
      ∀ n, some (s.userId : Int) = some n → Known t n := by
    rintro s hauth n ⟨⟩
    exact hactor s hauth.loaded
  cases h with
  | loginOk handler address hfind => exact .inl (found hfind)
  | loginUnknown => exact .inl fun n hn => by cases hn
  | loginFail handler address hfind => exact .inl (found hfind)
  | userCreate => exact .inr ⟨_, _, _, _, rfl, rfl⟩
  | logout s handler hauth => exact .inl (actor hauth)
  | sessionRevoke s handler hauth => exact .inl (actor hauth)
  | sessionRevokeOthers s handler hauth => exact .inl (actor hauth)
  | passwordChange s handler hauth => exact .inl (actor hauth)
  | @passwordReset uid passwordHash handler resets =>
    left
    rintro n ⟨⟩
    cases hset : t.setting (resetKey uid) with
    | some value => exact hintegrity.resets uid value hset
    | none =>
      have hmissing := resets.consumed
      rw [consume_missing hset] at hmissing
      cases hmissing

/-- A handler keeps the database together. -/
theorem plan_integrity (hintegrity : Integrity t)
    (hactor : ∀ s, p.snapshot = some s → Known t s.userId) :
    Integrity (execute (plan prim t limiter p form input).statements t).tables := by
  have hrecords := plan_records prim t limiter p form input
  have hsettings : ∀ key value,
      .setSetting key value ∈ (plan prim t limiter p form input).statements →
        (Statement.setSetting key value).Proper t := by
    intro key value hmem
    obtain ⟨rfl, hdays⟩ := plan_setSetting hmem
    exact ⟨fun uid hkey => absurd hkey.symm (resetKey_ne_retention uid), fun _ => hdays⟩
  generalize (plan prim t limiter p form input).statements = sts at hrecords hsettings
  cases hrecords with
  | silent hsilent =>
    apply hintegrity.execute
    intro st hst
    cases st with
    | insertAuthEvent e => cases hsilent _ hst
    | setSetting key value => exact hsettings key value hst
    | _ => exact trivial
  | @event before after e recorded ensues =>
    have others : ∀ st ∈ before ++ .insertAuthEvent e :: after, ∀ t' : Tables,
        (∀ n, e.userId = some n → Known t' n) → (∀ n, Known t n → Known t' n) →
          st.Proper t' := by
      intro st hst t' hknown hlater
      cases st with
      | insertAuthEvent e' =>
        obtain rfl : e' = e := by
          rcases List.mem_append.mp hst with hst | hst
          · cases recorded.silent _ hst
          · rcases List.mem_cons.mp hst with heq | hst
            · exact Statement.insertAuthEvent.inj heq
            · rcases ensues.last with rfl | ⟨-, row, rfl⟩
              · cases hst
              · cases List.mem_singleton.mp hst
        exact hknown
      | setSetting key value =>
        obtain ⟨hresets, hdays⟩ := hsettings key value hst
        exact ⟨fun uid hkey => hlater _ (hresets uid hkey), hdays⟩
      | _ => exact trivial
    rcases recorded.known hintegrity hactor with
      hknown | ⟨email, passwordHash, role, createdAt, rfl, hnew⟩
    · exact hintegrity.execute fun st hst => others st hst t hknown fun _ h => h
    · -- the account is there, once it has been created
      rw [List.cons_append, List.nil_append, execute]
      cases hr : Statement.refusal t (.createUser email passwordHash role createdAt) with
      | some r => exact hintegrity
      | none =>
        apply (hintegrity.apply hr trivial).execute
        intro st hst
        refine others st (List.mem_append_right _ hst) _ ?_ fun n h => h.apply _
        intro n hn
        obtain rfl := Option.some.inj (hnew.symm.trans hn)
        exact ⟨t.users.nextId, ⟨email, passwordHash, role, true, createdAt⟩, rfl,
          by simp only [Statement.apply, Sqlite.Table.get_insert, if_true]⟩

end Handlers

section Runs
variable {prim : Primitives} {allowSignup : Bool} {loads : Str → Except Exc Value} {σ σ' : State}
  {a : Action}

theorem Stepped.integrity (h : Stepped prim σ a σ') (hrooted : Rooted σ)
    (hintegrity : Integrity σ.tables) : Integrity σ'.tables := by
  cases h with
  | arrived free loaded tables =>
    obtain ⟨sts, hsts, hkinds⟩ := loaded.statements
    rw [tables, hsts]
    apply hintegrity.execute
    intro st hst
    rcases hkinds st hst with ⟨id, rfl⟩ | ⟨id, lastSeenAt, rfl⟩
    · exact trivial
    · exact trivial
  | resumed was tables =>
    rw [tables]
    apply plan_integrity hintegrity
    intro s hs
    obtain ⟨user, hget, -⟩ := hrooted _ _ s (State.suspended_eq_some.mp was).1 hs
    exact ⟨s.userId, user, rfl, hget⟩
  | minted tables =>
    rw [tables]
    apply hintegrity.execute
    intro st hst
    unfold mintReset at hst
    split at hst
    · next id user digest expiresAt hfind _ _ =>
      rw [List.mem_singleton.mp hst]
      refine ⟨?_, ?_⟩
      · intro uid hkey
        rw [← resetKey_injective hkey]
        exact ⟨id, user, rfl, (Sqlite.Table.find_eq_some hfind).1⟩
      · exact fun hkey => absurd hkey (resetKey_ne_retention _)
    · cases hst
  | entered was passed tables => rwa [tables]
  | dropped tables => rwa [tables]
  | stayed tables => rwa [tables]

theorem seedEndpoints_integrity (nowMs : Int) (endpoints : List Endpoint) {t : Tables}
    (h : Integrity t) : Integrity (seedEndpoints nowMs endpoints t).1 ∧
      ∀ id user, t.users.get id = some user →
        (seedEndpoints nowMs endpoints t).1.users.get id = some user := by
  induction endpoints generalizing t with
  | nil => exact ⟨h, fun _ _ hget => hget⟩
  | cons e endpoints ih =>
    have hcreated : Integrity (store.execute
        [.createEndpoint { e with createdAt := nowMs, updatedAt := nowMs }] t).tables :=
      h.execute (List.forall_mem_singleton.mpr trivial)
    have hkept : ∀ id user, t.users.get id = some user → (store.execute
        [.createEndpoint { e with createdAt := nowMs, updatedAt := nowMs }] t).tables.users.get id =
          some user :=
      fun id user hget => execute_user_kept hget (List.forall_mem_singleton.mpr fun h => h)
    unfold seedEndpoints
    split
    · exact ih h
    · simp only
      split
      · exact ⟨hcreated, hkept⟩
      · obtain ⟨hrest, hkept'⟩ := ih hcreated
        exact ⟨hrest, fun id user hget => hkept' id user (hkept id user hget)⟩

theorem change_integrity (c : Change) (h : Integrity σ.tables ∧ Rooted σ) :
    Integrity (change prim allowSignup loads σ c).tables ∧
      Rooted (change prim allowSignup loads σ c) := by
  obtain ⟨hintegrity, hrooted⟩ := h
  cases c with
  | request a =>
    exact ⟨(step_stepped prim allowSignup σ a).integrity hrooted hintegrity, rooted_step hrooted⟩
  | seed text now =>
    have hseed : Integrity (seedConfig loads σ.tables text now) ∧
        ∀ id user, σ.tables.users.get id = some user →
          (seedConfig loads σ.tables text now).users.get id = some user := by
      unfold seedConfig
      split
      · exact ⟨hintegrity, fun _ _ hget => hget⟩
      · exact seedEndpoints_integrity _ _ hintegrity
    refine ⟨hseed.1, ?_⟩
    intro j q s hq hs
    obtain ⟨user, hget, hrole⟩ := hrooted j q s hq hs
    exact ⟨user, hseed.2 _ _ hget, hrole⟩

end Runs

/-- In every state that requests in any interleaving, resets of the operator's and seeded
    files reach from the empty database, it holds together; and whoever looks up an address
    or a token finds the one row that has it. -/
theorem database_holds (prim : Primitives) (allowSignup : Bool) (loads : Str → Except Exc Value)
    (changes : List Change) :
    let t := (changes.foldl (change prim allowSignup loads) { tables := {} }).tables
    Integrity t ∧
    (∀ email id user, t.userByEmail email = some (id, user) ↔
      t.users.get id = some user ∧ sameNocase user.email email = true) ∧
    ∀ tokenHash id row, t.sessionByTokenHash tokenHash = some (id, row) ↔
      t.sessions.get id = some row ∧ row.tokenHash = tokenHash := by
  intro t
  have hintegrity : Integrity t := by
    have hrun : Integrity t ∧
        Rooted (changes.foldl (change prim allowSignup loads) { tables := {} }) := by
      show Integrity (changes.foldl (change prim allowSignup loads) { tables := {} }).tables ∧ _
      induction changes using List.reverseRecOn with
      | nil =>
        refine ⟨integrity_empty, ?_⟩
        intro j q s hq
        cases hq
      | append_singleton changes c ih =>
        rw [List.foldl_append]
        exact change_integrity c ih
    exact hrun.1
  refine ⟨hintegrity, ?_, ?_⟩
  · intro email id user
    apply hintegrity.addresses.find_eq_some_iff
    intro u u' hu hu'
    unfold sameNocase at *
    rw [beq_iff_eq] at *
    exact hu.trans hu'.symm
  · intro tokenHash id row
    have hfind : t.sessionByTokenHash tokenHash = some (id, row) ↔
        t.sessions.get id = some row ∧ (row.tokenHash == tokenHash) = true := by
      apply hintegrity.tokens.find_eq_some_iff
      intro s s' hs hs'
      exact (beq_iff_eq.mp hs).trans (beq_iff_eq.mp hs').symm
    rw [hfind, beq_iff_eq]

end console
end HookGuard
