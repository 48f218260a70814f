import HookGuard.Console.SessionRows
import HookGuard.Lib.Runs

/- How long a session lives (`SessionMiddleware._load`, `routes/auth.py`,
   `store/sessions.py`).

   `Followed` keeps, beside the Console, what a reader of the requests would know of the
   session of one token: when it was started, the latest request with the token, whether
   two were ever further apart than the idle timeout allows, and whether the session was
   deleted or refused. `Honours` is what a request with the token is promised of that.

   The stored times are cut off to milliseconds after two roundings, so that an expiry may
   be stored a millisecond early: then the last request the session is promised is refused
   (`last_request_refused`). Where the times of a session are read back as they should be
   (`Kept`), every request is honoured (`session_lifetime`). -/
namespace HookGuard
open Py store auth Runs

namespace console

/-! ## The life of a session -/

/-- What is known of a session that was started: whose it is, when it was started, when the
    latest request had its token, whether no two of these were further apart than the idle
    timeout less the touch interval, whether a handler deleted it, and whether a request
    was refused as it had expired. -/
structure Life where
  userId : Nat
  created : Datetime
  latest : Datetime
  steady : Bool := true
  deleted : Bool := false
  refused : Bool := false

/-- A request with the token; `gone` is whether it found the session, and deleted it. -/
def Life.request (l : Life) (now : Datetime) (gone : Bool) : Life :=
  { l with
    latest := now
    steady := l.steady && now.us - l.latest.us ≤ SESSION_IDLE_TIMEOUT - TOUCH_INTERVAL
    refused := l.refused || gone }

/-- The request has the token of the hash. -/
def carries (prim : Primitives) (h : Bytes) (request : Request) : Bool :=
  match presented prim request with
  | .ok (some h') => h' == h
  | _ => false

/-- There is a session of the hash. -/
def State.holds (σ : State) (h : Bytes) : Bool := (σ.tables.sessionByTokenHash h).isSome

/-- When a request arrives, or a handler starts a session. -/
def Action.time : Action → Option Datetime
  | .arrive _ _ _ now => some now
  | .resume _ _ input => some input.started
  | _ => none

/-- The Console, the latest time of a step, and the session of a token, once it is
    started. -/
structure Followed where
  state : State
  clock : Int
  life : Option Life := none

section Follow
variable (prim : Primitives) (allowSignup : Bool) (h : Bytes)

def Followed.step (φ : Followed) (a : Action) : Followed :=
  let σ := console.step prim allowSignup φ.state a
  { state := σ
    clock := (a.time.map Datetime.us).getD φ.clock
    life :=
      match a with
      | .arrive i _ request now =>
        if φ.state.pending i = none ∧ carries prim h request = true then
          φ.life.map fun l => l.request now (φ.state.holds h && !σ.holds h)
        else φ.life
      | .resume _ _ input =>
        match φ.state.holds h, σ.tables.sessionByTokenHash h with
        | false, some (_, row) =>
          some { userId := row.userId, created := input.started, latest := input.started }
        | true, none => φ.life.map fun l => { l with deleted := true }
        | _, _ => φ.life
      | _ => φ.life }

/-- The times do not go back, and are whole milliseconds. -/
def Timed (φ : Followed) (a : Action) : Prop :=
  ∀ now, a.time = some now → φ.clock ≤ now.us ∧ now.us % 1000 = 0

/-- No other token has the hash: it is drawn once. -/
def Fresh (φ : Followed) : Action → Prop
  | .resume _ _ input => hashToken prim input.token = .ok h → φ.life = none
  | _ => True

/-- What a request with the token is promised. -/
structure Honours (t : Tables) (l : Life) (request : Request) (now : Datetime) : Prop where
  /-- Who is authenticated is within the two limits. -/
  within : ∀ s, (load prim t request now).2 = .ok (some s) →
    now.us ≤ l.created.us + SESSION_ABSOLUTE_TIMEOUT ∧
      now.us ≤ l.latest.us + SESSION_IDLE_TIMEOUT
  /-- An active user whose requests were never too far apart is authenticated until the
      session ends. -/
  granted : l.deleted = false → (l.request now false).steady = true →
    now.us ≤ l.created.us + SESSION_ABSOLUTE_TIMEOUT →
    (∃ user, t.users.get l.userId = some user ∧ user.active = true) →
    ∃ s, (load prim t request now).2 = .ok (some s)
  /-- What was deleted or refused is over. -/
  finished : l.deleted = true ∨ l.refused = true → ∀ s, (load prim t request now).2 ≠ .ok (some s)

def Honoured (φ : Followed) : Action → Prop
  | .arrive i _ request now => ∀ l, φ.state.pending i = none → carries prim h request = true →
      φ.life = some l → Honours prim φ.state.tables l request now
  | _ => True

end Follow

/-- A time that is written as when a session was last seen: it is read back before the next
    millisecond, and a week before the years end. -/
def SeenWell (x : Datetime) : Prop :=
  ∃ back idle, Datetime.fromUnixMs x.unixMs = some back ∧ back.us < x.us + 1000 ∧
    back.add SESSION_IDLE_TIMEOUT = some idle

/-- An expiry: it is read back within its millisecond. -/
def ExpiresWell (x : Datetime) : Prop :=
  ∃ back, Datetime.fromUnixMs x.unixMs = some back ∧ x.us ≤ back.us ∧ back.us < x.us + 1000

/-- What is written of the session is read back as it should be: where it is started, and
    where a request touches it. -/
def Kept (prim : Primitives) (h : Bytes) (φ : Followed) : Action → Prop
  | .arrive _ _ request now => carries prim h request = true →
      ∀ id row lastSeen, φ.state.tables.sessionByTokenHash h = some (id, row) →
      Datetime.fromUnixMs row.lastSeenAt = some lastSeen →
      TOUCH_INTERVAL < now.us - lastSeen.us → SeenWell now
  | .resume _ _ input => hashToken prim input.token = .ok h →
      SeenWell input.started ∧
        ∀ expires, input.started.add SESSION_ABSOLUTE_TIMEOUT = some expires → ExpiresWell expires
  | _ => True

/-! ## What a run keeps -/

/-- The row of a session that is not over. -/
structure Present (t : Tables) (h : Bytes) (l : Life) (id : Nat) (row : Session) : Prop where
  sole : Sole t h id row
  user : row.userId = l.userId
  expires : ∃ back, Datetime.fromUnixMs row.expiresAt = some back ∧
    l.created.us + SESSION_ABSOLUTE_TIMEOUT ≤ back.us ∧
    back.us < l.created.us + SESSION_ABSOLUTE_TIMEOUT + 1000
  seen : ∃ back idle, Datetime.fromUnixMs row.lastSeenAt = some back ∧
    back.add SESSION_IDLE_TIMEOUT = some idle ∧ back.us < l.latest.us + 1000 ∧
    l.latest.us ≤ back.us + TOUCH_INTERVAL
  alive : l.deleted = false ∧ l.refused = false

/-- A session that is over has no row; and if it was refused only, it had to be. -/
structure Ended (t : Tables) (h : Bytes) (l : Life) : Prop where
  missing : Missing t h
  ended : l.deleted = true ∨ l.refused = true
  refusal : l.deleted = false →
    l.steady = false ∨ l.created.us + SESSION_ABSOLUTE_TIMEOUT < l.latest.us

/-- The session of the token, once it is started. -/
structure Lives (t : Tables) (h : Bytes) (clock : Int) (l : Life) : Prop where
  created : l.created.us % 1000 = 0
  latest : l.latest.us % 1000 = 0
  clock : l.latest.us ≤ clock
  row : (∃ id row, Present t h l id row) ∨ Ended t h l

/-- The tables are as the life of the session says. -/
def Consistent (h : Bytes) (φ : Followed) : Prop :=
  match φ.life with
  | none => Missing φ.state.tables h
  | some l => Lives φ.state.tables h φ.clock l

section Lifetime
variable {prim : Primitives} {allowSignup : Bool} {h : Bytes} {t : Tables} {l : Life} {id : Nat}
  {row : Session} {request : Request} {now : Datetime}

theorem Present.seen_now (hp : Present t h l id row) {lastSeen : Datetime}
    (hseen : Datetime.fromUnixMs row.lastSeenAt = some lastSeen) (hle : l.latest.us ≤ now.us)
    (hkept : TOUCH_INTERVAL < now.us - lastSeen.us → SeenWell now) :
    ∃ row', Present
      (if decide (TOUCH_INTERVAL < now.us - lastSeen.us) = true then
        (Statement.touchSession id now.unixMs).apply t else t) h (l.request now false) id row' := by
  obtain ⟨back, idle, hback, hidle, hlatest, -⟩ := hp.seen
  obtain rfl : lastSeen = back := Option.some.inj (hseen.symm.trans hback)
  have halive : l.deleted = false ∧ (l.refused || false) = false :=
    ⟨hp.alive.1, by rw [hp.alive.2, Bool.false_or]⟩
  by_cases htouch : TOUCH_INTERVAL < now.us - lastSeen.us
  · simp only [htouch, decide_true, if_true]
    obtain ⟨back, idle, hread, hback, hidle⟩ := hkept htouch
    have hnear := Datetime.fromUnixMs_near hread
    rw [abs_le] at hnear
    refine ⟨_, hp.sole.touched now.unixMs, hp.user, hp.expires,
      ⟨back, idle, hread, hidle, hback, ?_⟩, halive⟩
    have hinterval : 2000 ≤ TOUCH_INTERVAL := by decide
    show now.us ≤ back.us + TOUCH_INTERVAL
    omega
  · simp only [htouch, decide_false, Bool.false_eq_true, if_false]
    refine ⟨row, hp.sole, hp.user, hp.expires, ⟨lastSeen, idle, hseen, hidle, ?_, ?_⟩, halive⟩
    · show lastSeen.us < now.us + 1000
      omega
    · show now.us ≤ lastSeen.us + TOUCH_INTERVAL
      omega

/-- A request with the token finds its row. Either it deletes it, and the session is past
    one of its limits, or it leaves it, and the session is within them. -/
theorem Present.load (hp : Present t h l id row)
    (hpresented : presented prim request = .ok (some h)) (hcreated : l.created.us % 1000 = 0)
    (hlatest : l.latest.us % 1000 = 0) (hnow : now.us % 1000 = 0) (hle : l.latest.us ≤ now.us)
    (hkept : ∀ lastSeen, Datetime.fromUnixMs row.lastSeenAt = some lastSeen →
      TOUCH_INTERVAL < now.us - lastSeen.us → SeenWell now) :
    (load prim t request now = ((Statement.deleteSession id).apply t, .ok none) ∧
      ((l.request now true).steady = false ∨
        l.created.us + SESSION_ABSOLUTE_TIMEOUT < now.us)) ∨
    (∃ t' row', load prim t request now = (t', .ok (attach t id row)) ∧
      Present t' h (l.request now false) id row') ∧
      now.us ≤ l.created.us + SESSION_ABSOLUTE_TIMEOUT ∧
      now.us ≤ l.latest.us + SESSION_IDLE_TIMEOUT := by
  obtain ⟨expiresAt, hexpires, hcap, hcap'⟩ := hp.expires
  obtain ⟨lastSeen, idle, hseen, hidle, hback, htouch⟩ := hp.seen
  have hlive : liveness row now = _ := liveness_eq hexpires hseen hidle
  rw [load_sole hpresented hp.sole]
  split at hlive
  · next hdead =>
    refine .inl ⟨refresh_expired hlive, ?_⟩
    rcases hdead with hdead | hdead
    · right
      omega
    · left
      have hgap : ¬ now.us - l.latest.us ≤ SESSION_IDLE_TIMEOUT - TOUCH_INTERVAL := by omega
      simp only [Life.request, hgap, decide_false, Bool.and_false]
  · next halive =>
    rw [not_or, not_lt, not_lt] at halive
    obtain ⟨row', hrow'⟩ := hp.seen_now hseen hle (hkept lastSeen hseen)
    refine .inr ⟨⟨_, row', refresh_live hlive, hrow'⟩, ?_, ?_⟩
    · simp only [SESSION_ABSOLUTE_TIMEOUT] at *
      omega
    · simp only [SESSION_IDLE_TIMEOUT] at *
      omega

theorem carries_iff : carries prim h request = true ↔ presented prim request = .ok (some h) := by
  unfold carries
  split
  · next h' hp => rw [hp, beq_iff_eq, Except.ok.injEq, Option.some.injEq]
  · next hne =>
    refine ⟨fun hfalse => absurd hfalse Bool.false_ne_true, ?_⟩
    intro hp
    exact absurd hp (hne h)

theorem Lives.honours {clock : Int} (hl : Lives t h clock l)
    (hpresented : presented prim request = .ok (some h)) (hnow : now.us % 1000 = 0)
    (hle : clock ≤ now.us)
    (hkept : ∀ id row lastSeen, t.sessionByTokenHash h = some (id, row) →
      Datetime.fromUnixMs row.lastSeenAt = some lastSeen →
      TOUCH_INTERVAL < now.us - lastSeen.us → SeenWell now) :
    Honours prim t l request now := by
  rcases hl.row with ⟨id, row, hp⟩ | hended
  · have hload := hp.load hpresented hl.created hl.latest hnow (hl.clock.trans hle)
      fun lastSeen => hkept id row lastSeen hp.sole.sessionByTokenHash
    have hopen : ¬ (l.deleted = true ∨ l.refused = true) := by
      simp [hp.alive.1, hp.alive.2]
    rcases hload with ⟨hload, hpast⟩ | ⟨⟨t', row', hload, -⟩, hcap, hidle⟩
    · refine ⟨?_, ?_, fun hover => absurd hover hopen⟩
      · intro s hs
        rw [hload] at hs
        cases hs
      · intro _ hsteady hcap _
        rcases hpast with hpast | hpast
        · exact absurd (hpast.symm.trans hsteady) Bool.false_ne_true
        · omega
    · refine ⟨fun _ _ => ⟨hcap, hidle⟩, ?_, fun hover => absurd hover hopen⟩
      rintro - - - ⟨user, hget, hactive⟩
      refine ⟨⟨id, row, user⟩, ?_⟩
      rw [hload]
      simp only [attach, hp.user, hget, hactive, if_true]
  · have hnobody : ∀ s, (load prim t request now).2 ≠ .ok (some s) := by
      intro s hs
      rw [load_missing hpresented hended.missing] at hs
      cases hs
    refine ⟨fun s hs => absurd hs (hnobody s), ?_, fun _ => hnobody⟩
    intro hdeleted hsteady hcap _
    have hclock := hl.clock
    rcases hended.refusal hdeleted with hpast | hpast
    · simp [Life.request, hpast] at hsteady
    · omega

/-- What a request with the token leaves of the session. -/
theorem Lives.requested {clock : Int} (hl : Lives t h clock l)
    (hpresented : presented prim request = .ok (some h)) (hnow : now.us % 1000 = 0)
    (hle : clock ≤ now.us)
    (hkept : ∀ id row lastSeen, t.sessionByTokenHash h = some (id, row) →
      Datetime.fromUnixMs row.lastSeenAt = some lastSeen →
      TOUCH_INTERVAL < now.us - lastSeen.us → SeenWell now) {t' : Tables}
    (ht' : t' = (load prim t request now).1) :
    Lives t' h now.us
      (l.request now ((t.sessionByTokenHash h).isSome && !(t'.sessionByTokenHash h).isSome)) := by
  refine ⟨hl.created, hnow, le_refl _, ?_⟩
  rcases hl.row with ⟨id, row, hp⟩ | hended
  · have hload := hp.load hpresented hl.created hl.latest hnow (hl.clock.trans hle)
      fun lastSeen => hkept id row lastSeen hp.sole.sessionByTokenHash
    rcases hload with ⟨hload, hpast⟩ | ⟨⟨t'', row', hload, hp'⟩, -⟩
    · rw [hload] at ht'
      subst ht'
      have hmissing := hp.sole.deleted
      right
      rw [hp.sole.sessionByTokenHash, sessionByTokenHash_eq_none.mpr hmissing]
      exact ⟨hmissing, .inr (Bool.or_true _), fun _ => hpast⟩
    · rw [hload] at ht'
      subst ht'
      left
      rw [hp.sole.sessionByTokenHash, hp'.sole.sessionByTokenHash]
      exact ⟨id, row', hp'⟩
  · rw [load_missing hpresented hended.missing] at ht'
    subst ht'
    right
    rw [sessionByTokenHash_eq_none.mpr hended.missing]
    refine ⟨hended.missing, ?_, ?_⟩
    · exact hended.ended.imp_right fun hrefused => by simp [Life.request, hrefused]
    · intro hdeleted
      have hclock := hl.clock
      rcases hended.refusal hdeleted with hpast | hpast
      · left
        simp [Life.request, hpast]
      · right
        show l.created.us + SESSION_ABSOLUTE_TIMEOUT < now.us
        omega

theorem Lives.on {t' : Tables} {clock clock' : Int} (hl : Lives t h clock l)
    (hle : clock ≤ clock') (hrow : (∃ id row, Present t' h l id row) ∨ Ended t' h l) :
    Lives t' h clock' l :=
  ⟨hl.created, hl.latest, hl.clock.trans hle, hrow⟩

theorem Present.of_sole {t' : Tables} (hp : Present t h l id row) (hsole : Sole t' h id row) :
    Present t' h l id row :=
  ⟨hsole, hp.user, hp.expires, hp.seen, hp.alive⟩

theorem Ended.of_missing {t' : Tables} (hended : Ended t h l) (hm : Missing t' h) :
    Ended t' h l :=
  ⟨hm, hended.ended, hended.refusal⟩

theorem Lives.of_agree {t' : Tables} {clock clock' : Int} (hl : Lives t h clock l)
    (hag : Agree t t' h) (hle : clock ≤ clock') : Lives t' h clock' l := by
  apply hl.on hle
  rcases hl.row with ⟨id, row, hp⟩ | hended
  · exact .inl ⟨id, row, hp.of_sole (hag.sole hp.sole)⟩
  · exact .inr (hended.of_missing (hag.missing hended.missing))

theorem lives_started {t' : Tables} {uid : Nat} {input : Input}
    (hstart : startSession prim request uid input = .ok (.createSession row))
    (hsole : Sole t' h id row) (hmillis : input.started.us % 1000 = 0)
    (hseen : SeenWell input.started) (hexpires : ∀ expires,
      input.started.add SESSION_ABSOLUTE_TIMEOUT = some expires → ExpiresWell expires) :
    Lives t' h input.started.us ⟨row.userId, input.started, input.started, true, false, false⟩ := by
  obtain ⟨-, hlastSeen, expires, hadd, hexpiresAt⟩ := startSession_row hstart
  obtain ⟨back, idle, hread, hback, hidle⟩ := hseen
  obtain ⟨until', hreadExpiry, hlower, hupper⟩ := hexpires expires hadd
  have hus : expires.us = input.started.us + SESSION_ABSOLUTE_TIMEOUT :=
    Datetime.ofMicroseconds_eq_some hadd
  have hnear := Datetime.fromUnixMs_near hread
  rw [abs_le] at hnear
  have hinterval : 2000 ≤ TOUCH_INTERVAL := by decide
  refine ⟨hmillis, hmillis, le_refl _, .inl ⟨id, row, hsole, rfl, ⟨until', ?_, ?_, ?_⟩,
    ⟨back, idle, ?_, hidle, hback, ?_⟩, rfl, rfl⟩⟩
  · rw [hexpiresAt, hreadExpiry]
  · show input.started.us + SESSION_ABSOLUTE_TIMEOUT ≤ until'.us
    omega
  · show until'.us < input.started.us + SESSION_ABSOLUTE_TIMEOUT + 1000
    omega
  · rw [hlastSeen, hread]
  · show input.started.us ≤ back.us + TOUCH_INTERVAL
    omega

theorem Consistent.of_agree {φ φ' : Followed} (hφ : Consistent h φ)
    (hlife : φ'.life = φ.life) (hclock : φ.clock ≤ φ'.clock)
    (hag : Agree φ.state.tables φ'.state.tables h) : Consistent h φ' := by
  unfold Consistent at hφ ⊢
  rw [hlife]
  cases hl : φ.life with
  | none =>
    rw [hl] at hφ
    exact hag.missing hφ
  | some l =>
    rw [hl] at hφ
    exact hφ.of_agree hag hclock

/-- A request arrives: it is followed if it has the token. -/
theorem consistent_arrive {φ : Followed} {i : Nat} {handler : Handler} (hφ : Consistent h φ)
    (htimed : Timed φ (.arrive i handler request now))
    (hkept : Kept prim h φ (.arrive i handler request now)) :
    Consistent h (φ.step prim allowSignup h (.arrive i handler request now)) := by
  obtain ⟨hle, hnow⟩ := htimed now rfl
  by_cases hfollowed : φ.state.pending i = none ∧ carries prim h request = true
  · obtain ⟨hfree, hcarries⟩ := hfollowed
    have hpresented := carries_iff.mp hcarries
    have htables : (step prim allowSignup φ.state (.arrive i handler request now)).tables = _ :=
      step_arrive_tables hfree
    unfold Consistent at hφ ⊢
    simp only [Followed.step, hfree, hcarries, and_self, if_true]
    cases hl : φ.life with
    | none =>
      rw [hl] at hφ
      rw [Option.map_none, htables, load_missing hpresented hφ]
      exact hφ
    | some l =>
      rw [hl] at hφ
      exact hφ.requested hpresented hnow hle (hkept hcarries) htables
  · refine hφ.of_agree (if_neg hfollowed) hle ?_
    refine (step_stepped prim allowSignup φ.state _).agree ?_ (by simp)
    rintro _ _ _ _ ⟨⟩ hfree hpresented
    exact hfollowed ⟨hfree, carries_iff.mpr hpresented⟩

/-- A handler goes on: the session is started, or deleted, or as it was. -/
theorem consistent_resume {φ : Followed} {i : Nat} {form : Form} {input : Input}
    (hφ : Consistent h φ) (htimed : Timed φ (.resume i form input))
    (hfresh : Fresh prim h φ (.resume i form input))
    (hkept : Kept prim h φ (.resume i form input)) :
    Consistent h (φ.step prim allowSignup h (.resume i form input)) := by
  obtain ⟨hle, hmillis⟩ := htimed input.started rfl
  have hstarted : ∀ {request uid row}, row.tokenHash = h →
      startSession prim request uid input = .ok (.createSession row) →
      hashToken prim input.token = .ok h := by
    rintro request uid row rfl hstart
    exact (startSession_row hstart).1
  unfold Consistent at hφ ⊢
  simp only [Followed.step, State.holds]
  generalize ht' : (step prim allowSignup φ.state (.resume i form input)).tables = t'
  cases hl : φ.life with
  | none =>
    rw [hl] at hφ
    rw [sessionByTokenHash_eq_none.mpr hφ]
    rcases step_resume_rows φ.state (.inl hφ) ht'.symm with hm | ⟨id, row, hsole, hbefore | hnew⟩
    · rw [sessionByTokenHash_eq_none.mpr hm]
      exact hm
    · exact absurd hbefore.hash (hφ id row hbefore.found)
    · obtain ⟨request, uid, hstart⟩ := hnew
      obtain ⟨hseen, hexpires⟩ := hkept (hstarted hsole.hash hstart)
      rw [hsole.sessionByTokenHash]
      exact lives_started hstart hsole hmillis hseen hexpires
  | some l =>
    rw [hl] at hφ
    -- the token is not drawn again
    have hold : ∀ {request uid row}, row.tokenHash = h →
        startSession prim request uid input ≠ .ok (.createSession row) := by
      intro request uid row hhash hstart
      have hnone := hfresh (hstarted hhash hstart)
      rw [hl] at hnone
      cases hnone
    rcases hφ.row with ⟨id, row, hp⟩ | hended
    · rw [hp.sole.sessionByTokenHash]
      rcases step_resume_rows φ.state (.inr ⟨id, row, hp.sole⟩) ht'.symm with
        hm | ⟨id', row', hsole, hbefore | hnew⟩
      · rw [sessionByTokenHash_eq_none.mpr hm]
        exact ⟨hφ.created, hφ.latest, hφ.clock.trans hle,
          .inr ⟨hm, .inl rfl, fun hdeleted => absurd hdeleted (by simp)⟩⟩
      · obtain rfl := hp.sole.only id' row' hbefore.found hbefore.hash
        obtain rfl := Option.some.inj (hbefore.found.symm.trans hp.sole.found)
        rw [hsole.sessionByTokenHash]
        exact hφ.on hle (.inl ⟨id', row', hp.of_sole hsole⟩)
      · obtain ⟨request, uid, hstart⟩ := hnew
        exact absurd hstart (hold hsole.hash)
    · rw [sessionByTokenHash_eq_none.mpr hended.missing]
      rcases step_resume_rows φ.state (.inl hended.missing) ht'.symm with
        hm | ⟨id', row', hsole, hbefore | hnew⟩
      · rw [sessionByTokenHash_eq_none.mpr hm]
        exact hφ.on hle (.inr (hended.of_missing hm))
      · exact absurd hbefore.hash (hended.missing id' row' hbefore.found)
      · obtain ⟨request, uid, hstart⟩ := hnew
        exact absurd hstart (hold hsole.hash)

theorem consistent_step {φ : Followed} {a : Action} (hφ : Consistent h φ) (htimed : Timed φ a)
    (hfresh : Fresh prim h φ a) (hkept : Kept prim h φ a) :
    Consistent h (φ.step prim allowSignup h a) := by
  have hstep := step_stepped prim allowSignup φ.state a
  cases a with
  | arrive => exact consistent_arrive hφ htimed hkept
  | resume => exact consistent_resume hφ htimed hfresh hkept
  | _ => exact hφ.of_agree rfl (le_refl _) (hstep.agree (by simp) (by simp))

/-- In every run from a state without the token's session, at times that do not go back, in
    which the session is read back as it should be, every request with the token is
    honoured. -/
theorem session_lifetime (σ : State) (clock : Int) (actions : List Action)
    (unknown : σ.holds h = false)
    (timed : Along (Followed.step prim allowSignup h)
      (fun φ a => Timed φ a ∧ Fresh prim h φ a ∧ Kept prim h φ a) { state := σ, clock } actions) :
    Along (Followed.step prim allowSignup h) (Honoured prim h) { state := σ, clock } actions := by
  refine timed.of_invariant (Consistent h) ?_ ?_ ?_
  · rintro φ a hφ ⟨htimed, hfresh, hkept⟩
    exact consistent_step hφ htimed hfresh hkept
  · rintro φ a hφ ⟨htimed, -, hkept⟩
    cases a with
    | arrive i handler request now =>
      intro l _ hcarries hlife
      obtain ⟨hle, hnow⟩ := htimed now rfl
      unfold Consistent at hφ
      rw [hlife] at hφ
      exact hφ.honours (carries_iff.mp hcarries) hnow hle (hkept hcarries)
    | _ => exact trivial
  · show Missing σ.tables h
    rw [← sessionByTokenHash_eq_none]
    simpa [State.holds] using unknown

end Lifetime

/-! ## A month of requests -/

theorem seenWell_of_epoch {x : Datetime} (h0 : 0 ≤ x.us) (hwhole : x.us % 1000 = 0)
    (hupper : x.us + SESSION_IDLE_TIMEOUT < 253402300799000000) : SeenWell x := by
  have htimeout : SESSION_IDLE_TIMEOUT = 604800000000 := by decide
  obtain ⟨back, hread, hback⟩ := Datetime.fromUnixMs_lt h0 hwhole (by omega)
  have hlower := back.lower
  exact ⟨back, ⟨back.us + SESSION_IDLE_TIMEOUT, by omega, by omega⟩, hread, hback,
    dif_pos ⟨by omega, by omega⟩⟩

/-- The time of a number of milliseconds. -/
def atMillis (ms : Int) : Datetime := (Datetime.ofMicroseconds (ms * 1000)).getD .epoch

/-- Ann signs up, and comes back every six days until the session ends. -/
def monthOfRequests (created : Int) : List Action :=
  Action.whole 0 .signup (.withToken "") (.ofFields [("email", "ann@example.com"),
    ("password", "a long password"), ("password_confirm", "a long password")])
    { Input.drawing "s1" with started := atMillis created } ++
  [6, 12, 18, 24, 30].map fun (day : Nat) =>
    .arrive day .view (.withToken "s1") (atMillis (created + day * 86400000))

/-- The times do not go back, and handlers go on before the session is started. -/
def Followed.orderly (φ : Followed) (a : Action) : Bool :=
  (a.time.all fun now => φ.clock ≤ now.us && now.us % 1000 == 0) &&
    match a with
    | .resume _ _ _ => φ.life.isNone
    | _ => true

theorem timed_fresh_of_orderly {prim : Primitives} {h : Bytes} {φ : Followed} {a : Action}
    (horderly : φ.orderly a = true) : Timed φ a ∧ Fresh prim h φ a := by
  unfold Followed.orderly at horderly
  rw [Bool.and_eq_true, Option.all_eq_true] at horderly
  obtain ⟨htimes, hlife⟩ := horderly
  refine ⟨?_, ?_⟩
  · intro now hnow
    have hboth := htimes now hnow
    rw [Bool.and_eq_true, decide_eq_true_eq, beq_iff_eq] at hboth
    exact hboth
  · cases a with
    | resume i form input => exact fun _ => Option.isNone_iff_eq_none.mp hlife
    | _ => exact trivial

theorem kept_of_epoch {prim : Primitives} {h : Bytes} {φ : Followed} {i : Nat}
    {handler : Handler} {request : Request} {now : Datetime}
    (hnow : 0 ≤ now.us ∧ now.us % 1000 = 0 ∧
      now.us + SESSION_IDLE_TIMEOUT < 253402300799000000) :
    Kept prim h φ (.arrive i handler request now) :=
  fun _ _ _ _ _ _ _ => seenWell_of_epoch hnow.1 hnow.2.1 hnow.2.2

theorem expires_well {started : Datetime}
    (hread : (started.add SESSION_ABSOLUTE_TIMEOUT).all fun expires =>
      (Datetime.fromUnixMs expires.unixMs).any fun back =>
        expires.us ≤ back.us && back.us < expires.us + 1000) :
    ∀ expires, started.add SESSION_ABSOLUTE_TIMEOUT = some expires → ExpiresWell expires := by
  intro expires hadd
  rw [hadd, Option.all_some, Option.any_eq_true] at hread
  obtain ⟨back, hback, hnear⟩ := hread
  rw [Bool.and_eq_true, decide_eq_true_eq, decide_eq_true_eq] at hnear
  exact ⟨back, hback, hnear⟩

/-- A session of the year 2026. -/
theorem session_lifetime_month :
    Along (Followed.step .plain true [115, 49]) (Honoured .plain [115, 49])
      ⟨{ tables := {} }, 0, none⟩ (monthOfRequests 1767225600000) := by
  have conditions : ∀ {φ a}, φ.orderly a = true → Kept .plain [115, 49] φ a →
      Timed φ a ∧ Fresh .plain [115, 49] φ a ∧ Kept .plain [115, 49] φ a :=
    fun horderly hkept =>
      And.imp_right (fun hfresh => ⟨hfresh, hkept⟩) (timed_fresh_of_orderly horderly)
  apply session_lifetime { tables := {} } 0 _ (by decide)
  refine ⟨conditions (by decide +kernel) ?_, conditions (by decide +kernel) trivial,
    conditions (by decide +kernel) ?_, conditions (by decide +kernel) ?_,
    conditions (by decide +kernel) ?_, conditions (by decide +kernel) ?_,
    conditions (by decide +kernel) ?_, conditions (by decide +kernel) ?_, trivial⟩
  · exact kept_of_epoch (by decide +kernel)
  · intro _
    refine ⟨seenWell_of_epoch ?_ ?_ ?_, expires_well (by decide +kernel)⟩
    all_goals decide +kernel
  all_goals exact kept_of_epoch (by decide +kernel)

/-- A request that is promised to be authenticated, and is not. -/
def Followed.dishonours (prim : Primitives) (h : Bytes) (φ : Followed) (i : Nat)
    (request : Request) (now : Datetime) : Bool :=
  (φ.state.pending i).isNone && carries prim h request && φ.life.any fun l =>
    !l.deleted && (l.request now false).steady &&
    now.us ≤ l.created.us + SESSION_ABSOLUTE_TIMEOUT &&
    (φ.state.tables.users.get l.userId).any User.active &&
    !((load prim φ.state.tables request now).2.toOption.any Option.isSome)

theorem not_honoured {prim : Primitives} {h : Bytes} {φ : Followed} {i : Nat}
    {handler : Handler} {request : Request} {now : Datetime}
    (hdishonours : φ.dishonours prim h i request now = true) :
    ¬ Honoured prim h φ (.arrive i handler request now) := by
  unfold Followed.dishonours at hdishonours
  simp only [Bool.and_eq_true, Option.any_eq_true, Option.isNone_iff_eq_none, Bool.not_eq_true',
    decide_eq_true_eq] at hdishonours
  obtain ⟨⟨hfree, hcarries⟩, l, hl, ⟨⟨⟨hdeleted, hsteady⟩, hcap⟩, user, hget, hactive⟩, hnot⟩ :=
    hdishonours
  intro hhonoured
  obtain ⟨s, hs⟩ := (hhonoured l hfree hcarries hl).granted hdeleted hsteady hcap
    ⟨user, hget, hactive⟩
  rw [hs] at hnot
  cases hnot

/-- The last request is thirty days after the session was started, to the millisecond. The
    expiry is stored a millisecond early. -/
theorem last_request_refused :
    Along (Followed.step .plain true [115, 49]) (fun φ a => Timed φ a ∧ Fresh .plain [115, 49] φ a)
        ⟨{ tables := {} }, 0, none⟩ (monthOfRequests 2144891648002) ∧
      ¬ Along (Followed.step .plain true [115, 49]) (Honoured .plain [115, 49])
        ⟨{ tables := {} }, 0, none⟩ (monthOfRequests 2144891648002) := by
  refine ⟨?_, ?_⟩
  · refine ⟨?_, ?_, ?_, ?_, ?_, ?_, ?_, ?_, trivial⟩
    all_goals exact timed_fresh_of_orderly (by decide +kernel)
  · intro h
    obtain ⟨-, -, -, -, -, -, -, hlast, -⟩ : Along _ _ _ (_ :: _) := h
    exact not_honoured (by decide +kernel) hlast

end console
end HookGuard
