import HookGuard.Console.Configuring
import HookGuard.Console.Interleaving
import HookGuard.Lib.Decimal
import HookGuard.Lib.Runs

/- Password resets, over runs of the Console (`routes/auth.py`, `__main__._reset_password`).

   A pending reset is a setting, `digest:expiry` under a key of its user. `Accounted` compares
   the settings with the history of what was minted and consumed: a user has one exactly
   when the last of its history is a mint, unless a submission after the expiry has removed
   it. The expiry is stored in whole milliseconds, cut off, so that a token may be refused
   up to a millisecond before its hour is over (`refused_within_hour`). -/
namespace HookGuard
open Py store auth Runs

namespace console

/-! ## What is stored of a reset -/

section Stored

theorem resetKey_injective {uid uid' : Int} (h : resetKey uid = resetKey uid') : uid = uid' :=
  intStr_injective (List.append_cancel_left h)

theorem resetKey_ne_retention (uid : Int) : resetKey uid ≠ lit "retention_days" := by
  intro h
  have hhead := congrArg List.head? h
  rw [resetKey, List.head?_append_of_ne_nil _ (by decide)] at hhead
  exact absurd hhead (by decide)

theorem bindError_ascii {s : Str} (h : isAscii s = true) : bindError (.str s) = none := by
  have hscalar := isScalar_of_isLatin1 (isLatin1_of_isAscii h)
  rw [bindError, if_pos hscalar]

theorem isAscii_resetKey (uid : Int) : isAscii (resetKey uid) = true :=
  isAscii_append (by decide) (isAscii_intStr uid)

theorem colon_not_mem_hex (b : Bytes) : 58 ∉ hex b := by
  have hdigit : ∀ n < 16, hexDigit n ≠ 58 := by decide
  intro h
  obtain ⟨n, hn, heq⟩ := mem_hex h
  exact hdigit n hn heq

theorem pyInt_unixMs (d : Datetime) : pyInt (intStr d.unixMs) = some d.unixMs :=
  pyInt_of_isInt64 (isInt64_unixMs d)

/-- What is stored of a pending reset. -/
def pendingReset (digest : Bytes) (expires : Datetime) : Str :=
  hex digest ++ lit ":" ++ intStr expires.unixMs

theorem isAscii_pendingReset (digest : Bytes) (expires : Datetime) :
    isAscii (pendingReset digest expires) = true :=
  isAscii_append (isAscii_append (isAscii_hex digest) (by decide)) (isAscii_intStr _)

variable {prim : Primitives} {t : Tables} {input : Input} {uid : Int}

/-- A pending reset is read back as it was minted. -/
theorem consume_pending {digest : Bytes} {expires : Datetime}
    (h : t.setting (resetKey uid) = some (pendingReset digest expires)) (token : Str) :
    consumeResetToken prim t input uid token =
      if (expires.unixMs : ℚ) < nearestDouble (input.consumed.timestamp * 1000) then
        .ok ([.deleteSetting (resetKey uid)], false)
      else
        match hashToken prim token with
        | .error e => .error e
        | .ok digest' =>
          if digest' ≠ digest then .ok ([], false)
          else .ok ([.deleteSetting (resetKey uid)], true) := by
  have hstored : pendingReset digest expires = hex digest ++ 58 :: intStr expires.unixMs := by
    rw [pendingReset, List.append_assoc]
    rfl
  unfold consumeResetToken
  cases hashToken prim token with
  | error e =>
    simp only [h, hstored, partition_eq (colon_not_mem_hex digest), fromhex_hex,
      Option.getD_some, pyInt_unixMs]
  | ok digest' =>
    simp only [h, hstored, partition_eq (colon_not_mem_hex digest), fromhex_hex,
      Option.getD_some, pyInt_unixMs]

theorem consume_missing (h : t.setting (resetKey uid) = none) (token : Str) :
    consumeResetToken prim t input uid token = .ok ([], false) := by
  unfold consumeResetToken
  rw [h]

end Stored

/-! ## What statements make of the settings -/

section Settings
variable {prim : Primitives} {t : Tables} {key : Str}

/-- The statement writes the setting of a key. -/
def WritesSetting (key : Str) : Statement → Prop
  | .setSetting k _ | .deleteSetting k => k = key
  | _ => False

theorem setting_kept {st : Statement} (h : ¬ WritesSetting key st) :
    (st.apply t).setting key = t.setting key := by
  cases st with
  | setSetting k value =>
    have hne : key ≠ k := fun heq => h heq.symm
    simp [Tables.setting, Statement.apply, hne]
  | deleteSetting k =>
    have hne : key ≠ k := fun heq => h heq.symm
    simp [Tables.setting, Statement.apply, hne]
  | _ => rfl

theorem execute_setting_kept {sts : List Statement} (h : ∀ st ∈ sts, ¬ WritesSetting key st) :
    (execute sts t).tables.setting key = t.setting key :=
  execute_induction (P := fun t' => t'.setting key = t.setting key)
    (fun st hst _ ht' _ => (setting_kept (h st hst)).trans ht') rfl

theorem execute_consumed {uid : Int} {sts : List Statement}
    (h : ∀ st ∈ sts, ∀ key, ¬ WritesSetting key st) (uid' : Int) :
    (execute (.deleteSetting (resetKey uid) :: sts) t).tables.setting (resetKey uid') =
      if uid' = uid then none else t.setting (resetKey uid') := by
  have hrefusal : (Statement.deleteSetting (resetKey uid)).refusal t = none := by
    unfold Statement.refusal
    simp only [Statement.parameters, List.findSome?_cons, bindError_ascii (isAscii_resetKey uid),
      List.findSome?_nil, Statement.violation]
  rw [execute, hrefusal]
  simp only
  rw [execute_setting_kept fun st hst => h st hst _]
  by_cases huid : uid' = uid
  · simp [Tables.setting, Statement.apply, huid]
  · have hkey : resetKey uid' ≠ resetKey uid := fun heq => huid (resetKey_injective heq)
    simp [Tables.setting, Statement.apply, huid, hkey]

theorem execute_minted {uid : Int} {value : Str} (hvalue : isAscii value = true) (uid' : Int) :
    (execute [.setSetting (resetKey uid) value] t).tables.setting (resetKey uid') =
      if uid' = uid then some value else t.setting (resetKey uid') := by
  have hrefusal : (Statement.setSetting (resetKey uid) value).refusal t = none := by
    unfold Statement.refusal
    simp only [Statement.parameters, List.findSome?_cons, bindError_ascii (isAscii_resetKey uid),
      bindError_ascii hvalue, List.findSome?_nil, Statement.violation]
  rw [execute, hrefusal]
  by_cases huid : uid' = uid
  · simp [execute, Tables.setting, Statement.apply, huid]
  · have hkey : resetKey uid' ≠ resetKey uid := fun heq => huid (resetKey_injective heq)
    simp [execute, Tables.setting, Statement.apply, huid, hkey]

theorem Loaded.setting_kept {t' : Tables} {request : Request} {now : Datetime}
    {r : Except Exc (Option Snapshot)} (h : Loaded prim t request now t' r) :
    t'.setting key = t.setting key := by
  obtain ⟨sts, rfl, hsts⟩ := h.statements
  apply execute_setting_kept
  intro st hst
  rcases hsts st hst with ⟨id, rfl⟩ | ⟨id, lastSeenAt, rfl⟩
  · exact fun h => h
  · exact fun h => h

/-- No handler but that of the reset page writes a pending reset. -/
theorem plan_setting_kept {limiter : Limiter} {p : Pending} {form : Form} {input : Input}
    (h : p.handler ≠ .resetPassword) (uid : Int) :
    (execute (plan prim t limiter p form input).statements t).tables.setting (resetKey uid) =
      t.setting (resetKey uid) := by
  apply execute_setting_kept
  have hconfigured := plan_configured prim t limiter p form input
  have heff := plan_effect prim t limiter p form input
  generalize p.handler = handler at h heff hconfigured
  generalize (plan prim t limiter p form input) = pl at heff hconfigured
  intro st hst hwrites
  by_cases hconf : Configures st
  · have hhandler := hconfigured st hst hconf
    cases hhandler with
    | retention days => exact resetKey_ne_retention uid hwrites.symm
    | _ => exact hwrites
  · generalize pl.statements = sts at heff hst
    cases heff with
    | nothing => cases hst
    | consumed key => exact h rfl
    | reset uid resets passwordHash e => exact h rfl
    | configured s given auth st' acts configures =>
      rw [List.mem_singleton.mp hst] at hconf
      exact hconf configures
    | _ =>
      simp only [List.mem_cons, List.not_mem_nil, or_false] at hst
      rcases hst with rfl | rfl | rfl | rfl
      all_goals exact hwrites

end Settings

/-! ## What is minted and consumed -/

inductive ResetEvent where
  /-- A token is minted for a user, with the time it expires at. -/
  | minted (userId : Int) (token : Str) (expires : Datetime)
  | consumed (userId : Int) (token : Str)

def ResetEvent.userId : ResetEvent → Int
  | minted userId _ _ | consumed userId _ => userId

/-- The last of the history of a user. -/
def latest (h : List ResetEvent) (uid : Int) : Option ResetEvent :=
  (h.filter fun e => e.userId = uid).getLast?

section Events
variable (prim : Primitives)

/-- A submission of the reset page consumes its token, or nothing. -/
def submissionEvents (t : Tables) (form : Form) (input : Input) : List ResetEvent :=
  match pyInt (form.get (lit "uid") []) with
  | none => []
  | some uid =>
    match consumeResetToken prim t input uid (form.get (lit "token") []) with
    | .ok (_, true) => [.consumed uid (form.get (lit "token") [])]
    | _ => []

/-- The operator mints a token, where there is such a user. -/
def mintEvents (t : Tables) (email token : Str) (now : Datetime) : List ResetEvent :=
  match t.userByEmail (prim.lower (strip email)), hashToken prim token,
    now.add RESET_TOKEN_TTL with
  | some (id, _), .ok _, some expires => [.minted id token expires]
  | _, _, _ => []

/-- What a step mints or consumes. -/
def resetEvents (σ : State) : Action → List ResetEvent
  | .mint email token now => mintEvents prim σ.tables email token now
  | .resume i form input =>
    match σ.suspended i with
    | none => []
    | some p =>
      if p.handler = .resetPassword then submissionEvents prim σ.tables form input else []
  | _ => []

/-- When a step looks at the clock for a reset. -/
def resetTimes (σ : State) : Action → List Datetime
  | .mint _ _ now => [now]
  | .resume i _ input =>
    match σ.suspended i with
    | none => []
    | some p => if p.handler = .resetPassword then [input.consumed] else []
  | _ => []

end Events

/-- The pending resets are those that were minted last, but for those that a submission has
    found expired. -/
structure Accounted (prim : Primitives) (t : Tables) (h : List ResetEvent) (last : Int) :
    Prop where
  minted : ∀ uid token expires, latest h uid = some (.minted uid token expires) →
    (∃ digest, hashToken prim token = .ok digest ∧
      t.setting (resetKey uid) = some (pendingReset digest expires)) ∨
    t.setting (resetKey uid) = none ∧ ∀ now : Datetime, last ≤ now.us →
      (expires.unixMs : ℚ) < nearestDouble (now.timestamp * 1000)
  other : ∀ uid, (∀ token expires, latest h uid ≠ some (.minted uid token expires)) →
    t.setting (resetKey uid) = none

section Accounting
variable {prim : Primitives} {t : Tables} {h : List ResetEvent} {last : Int} {uid : Int}
  {token : Str} {input : Input}

theorem latest_append (h : List ResetEvent) (e : ResetEvent) (uid : Int) :
    latest (h ++ [e]) uid = if e.userId = uid then some e else latest h uid := by
  unfold latest
  rw [List.filter_append]
  by_cases huid : e.userId = uid <;> simp [huid]

theorem accounted_nil (hnone : ∀ uid, t.setting (resetKey uid) = none) :
    Accounted prim t [] last := by
  refine ⟨?_, fun uid _ => hnone uid⟩
  intro uid token expires hlatest
  exact absurd hlatest (by simp [latest])

theorem Accounted.later {last' : Int} (ha : Accounted prim t h last) (hle : last ≤ last') :
    Accounted prim t h last' := by
  refine ⟨?_, ha.other⟩
  intro uid token expires hlatest
  refine (ha.minted uid token expires hlatest).imp id ?_
  rintro ⟨hnone, hexpired⟩
  exact ⟨hnone, fun now hnow => hexpired now (hle.trans hnow)⟩

theorem Accounted.same {t' : Tables} (ha : Accounted prim t h last)
    (hsame : ∀ uid, t'.setting (resetKey uid) = t.setting (resetKey uid)) :
    Accounted prim t' h last := by
  refine ⟨?_, ?_⟩
  · intro uid token expires hlatest
    rw [hsame]
    exact ha.minted uid token expires hlatest
  · intro uid hother
    rw [hsame]
    exact ha.other uid hother

theorem Accounted.pending {stored : Str} (ha : Accounted prim t h last)
    (hstored : t.setting (resetKey uid) = some stored) :
    ∃ token expires digest, latest h uid = some (.minted uid token expires) ∧
      hashToken prim token = .ok digest ∧ stored = pendingReset digest expires := by
  by_cases hminted : ∃ token expires, latest h uid = some (.minted uid token expires)
  · obtain ⟨token, expires, hlatest⟩ := hminted
    rcases ha.minted uid token expires hlatest with ⟨digest, hdigest, hpending⟩ | ⟨hnone, -⟩
    · rw [hpending] at hstored
      exact ⟨token, expires, digest, hlatest, hdigest, (Option.some.inj hstored).symm⟩
    · rw [hnone] at hstored
      cases hstored
  · have hnone := ha.other uid fun token expires hlatest => hminted ⟨token, expires, hlatest⟩
    rw [hnone] at hstored
    cases hstored

/-- A submission is accepted exactly of the token that was minted last, not consumed, and
    not expired. -/
theorem Accounted.consumes_iff (ha : Accounted prim t h last)
    (hinjective : ∀ s s' b, hashToken prim s = .ok b → hashToken prim s' = .ok b → s = s')
    (hlast : last ≤ input.consumed.us) :
    (∃ sts, consumeResetToken prim t input uid token = .ok (sts, true)) ↔
      ∃ expires, latest h uid = some (.minted uid token expires) ∧
        nearestDouble (input.consumed.timestamp * 1000) ≤ expires.unixMs := by
  refine ⟨?_, ?_⟩
  · rintro ⟨sts, hconsume⟩
    cases hstored : t.setting (resetKey uid) with
    | none =>
      rw [consume_missing hstored] at hconsume
      cases hconsume
    | some stored =>
      obtain ⟨token', expires, digest, hlatest, hdigest, rfl⟩ := ha.pending hstored
      rw [consume_pending hstored] at hconsume
      split at hconsume
      · cases hconsume
      · next hunexpired =>
        split at hconsume
        · cases hconsume
        · next digest' hdigest' =>
          split at hconsume
          · cases hconsume
          · next hsame =>
            rw [not_not.mp hsame] at hdigest'
            obtain rfl := hinjective token token' digest hdigest' hdigest
            exact ⟨expires, hlatest, not_lt.mp hunexpired⟩
  · rintro ⟨expires, hlatest, hunexpired⟩
    rcases ha.minted uid token expires hlatest with ⟨digest, hdigest, hstored⟩ | ⟨-, hexpired⟩
    · refine ⟨[.deleteSetting (resetKey uid)], ?_⟩
      rw [consume_pending hstored, if_neg (not_lt.mpr hunexpired)]
      simp only [hdigest]
      rw [if_neg (not_not.mpr rfl)]
    · exact absurd (hexpired _ hlast) (not_lt.mpr hunexpired)

theorem Accounted.rejected (ha : Accounted prim t h last) {sts : List Statement}
    (hconsume : consumeResetToken prim t input uid token = .ok (sts, false)) :
    sts = [] ∨ sts = [.deleteSetting (resetKey uid)] ∧
      ∃ token' expires, latest h uid = some (.minted uid token' expires) ∧
        (expires.unixMs : ℚ) < nearestDouble (input.consumed.timestamp * 1000) := by
  cases hstored : t.setting (resetKey uid) with
  | none =>
    rw [consume_missing hstored] at hconsume
    cases hconsume
    exact .inl rfl
  | some stored =>
    obtain ⟨token', expires, digest, hlatest, hdigest, rfl⟩ := ha.pending hstored
    rw [consume_pending hstored] at hconsume
    split at hconsume
    · next hexpired =>
      cases hconsume
      exact .inr ⟨rfl, token', expires, hlatest, hexpired⟩
    · split at hconsume
      · cases hconsume
      · split at hconsume
        · cases hconsume
          exact .inl rfl
        · cases hconsume

/-- What is minted or consumed is accounted for, where the other users' settings are as
    they were. -/
theorem Accounted.snoc {t' : Tables} {e : ResetEvent} (ha : Accounted prim t h last)
    (hframe : ∀ uid, e.userId ≠ uid → t'.setting (resetKey uid) = t.setting (resetKey uid))
    (hminted : ∀ token expires, e = .minted e.userId token expires →
      ∃ digest, hashToken prim token = .ok digest ∧
        t'.setting (resetKey e.userId) = some (pendingReset digest expires))
    (hconsumed : ∀ token, e = .consumed e.userId token → t'.setting (resetKey e.userId) = none) :
    Accounted prim t' (h ++ [e]) last := by
  refine ⟨?_, ?_⟩
  · intro uid token expires hlatest
    rw [latest_append] at hlatest
    split at hlatest
    · next huid =>
      subst huid
      exact .inl (hminted token expires (Option.some.inj hlatest))
    · next huid =>
      rw [hframe uid huid]
      exact ha.minted uid token expires hlatest
  · intro uid hother
    simp only [latest_append] at hother
    by_cases huid : e.userId = uid
    · subst huid
      cases e with
      | minted uid token expires => exact absurd (if_pos rfl) (hother token expires)
      | consumed uid token => exact hconsumed token rfl
    · rw [hframe uid huid]
      apply ha.other
      simpa only [if_neg huid] using hother

theorem Accounted.other_token {token' : Str} {expires : Datetime}
    (ha : Accounted prim t h input.consumed.us)
    (hinjective : ∀ s s' b, hashToken prim s = .ok b → hashToken prim s' = .ok b → s = s')
    (hlatest : latest h uid = some (.minted uid token' expires)) (hne : token ≠ token')
    (hunexpired : nearestDouble (input.consumed.timestamp * 1000) ≤ expires.unixMs)
    {sts : List Statement} {valid : Bool}
    (hconsume : consumeResetToken prim t input uid token = .ok (sts, valid)) :
    sts = [] ∧ valid = false := by
  cases valid with
  | true =>
    obtain ⟨expires', hlatest', -⟩ := (ha.consumes_iff hinjective le_rfl).mp ⟨sts, hconsume⟩
    rw [hlatest] at hlatest'
    exact absurd (ResetEvent.minted.inj (Option.some.inj hlatest')).2.1.symm hne
  | false =>
    refine ⟨?_, rfl⟩
    rcases ha.rejected hconsume with rfl | ⟨rfl, token'', expires', hlatest', hexpired⟩
    · rfl
    · rw [hlatest] at hlatest'
      obtain rfl := (ResetEvent.minted.inj (Option.some.inj hlatest')).2.2
      exact absurd hexpired (not_lt.mpr hunexpired)

theorem Accounted.mints {t' : Tables} {digest : Bytes} {expires : Datetime}
    (ha : Accounted prim t h last) (hdigest : hashToken prim token = .ok digest)
    (hset : ∀ uid', t'.setting (resetKey uid') =
      if uid' = uid then some (pendingReset digest expires) else t.setting (resetKey uid')) :
    Accounted prim t' (h ++ [.minted uid token expires]) last := by
  apply ha.snoc
  · intro uid' hne
    rw [hset]
    exact if_neg (Ne.symm hne)
  · intro token' expires' heq
    obtain ⟨-, rfl, rfl⟩ := ResetEvent.minted.inj heq
    refine ⟨digest, hdigest, ?_⟩
    rw [hset]
    exact if_pos rfl
  · intro token' heq
    cases heq

theorem Accounted.consumes {t' : Tables} (ha : Accounted prim t h last)
    (hset : ∀ uid', t'.setting (resetKey uid') =
      if uid' = uid then none else t.setting (resetKey uid')) :
    Accounted prim t' (h ++ [.consumed uid token]) last := by
  apply ha.snoc
  · intro uid' hne
    rw [hset]
    exact if_neg (Ne.symm hne)
  · intro token' expires heq
    cases heq
  · intro token' heq
    rw [hset]
    exact if_pos rfl

theorem Accounted.expires {t' : Tables} {now : Datetime} {expires : Datetime}
    (ha : Accounted prim t h last) (hlatest : latest h uid = some (.minted uid token expires))
    (hexpired : (expires.unixMs : ℚ) < nearestDouble (now.timestamp * 1000))
    (hnow : now.us ≤ last)
    (hset : ∀ uid', t'.setting (resetKey uid') =
      if uid' = uid then none else t.setting (resetKey uid')) : Accounted prim t' h last := by
  refine ⟨?_, ?_⟩
  · intro uid' token' expires' hlatest'
    by_cases huid : uid' = uid
    · obtain ⟨-, -, rfl⟩ : uid = uid' ∧ token = token' ∧ expires = expires' := by
        simpa [huid, hlatest] using hlatest'
      refine .inr ⟨by rw [hset, if_pos huid], ?_⟩
      intro later hlater
      exact hexpired.trans_le (Datetime.milliseconds_mono (hnow.trans hlater))
    · rw [hset, if_neg huid]
      exact ha.minted uid' token' expires' hlatest'
  · intro uid' hother
    rw [hset, ha.other uid' hother, ite_self]

end Accounting

/-! ## What a step keeps -/

section Steps
variable {prim : Primitives} {allowSignup : Bool} {t : Tables} {σ : State}
  {h : List ResetEvent} {last last' : Int} {form : Form} {input : Input}

theorem resetPassword_statements (request : Request) (uid : Int) (consumed : List Statement) :
    ∃ rest, (resetPassword prim request form input uid consumed).statements = consumed ++ rest ∧
      ∀ st ∈ rest, ∀ key, ¬ WritesSetting key st := by
  unfold resetPassword
  simp only
  split
  · exact ⟨[], (List.append_nil _).symm, nofun⟩
  · split
    · exact ⟨[], (List.append_nil _).symm, nofun⟩
    · split
      · exact ⟨[], (List.append_nil _).symm, nofun⟩
      · exact ⟨_, rfl, by simp [WritesSetting, record]⟩

theorem Accounted.submission (ha : Accounted prim t h last) (hlast : last ≤ input.consumed.us)
    (hlast' : input.consumed.us ≤ last') (request : Request) :
    Accounted prim (execute (handleResetPassword prim t request form input).statements t).tables
      (h ++ submissionEvents prim t form input) last' := by
  have hlater := ha.later (hlast.trans hlast')
  unfold handleResetPassword submissionEvents
  cases pyInt (form.get (lit "uid") []) with
  | none => simpa [Plan.stop, execute] using hlater
  | some uid =>
    simp only
    cases hconsume : consumeResetToken prim t input uid (form.get (lit "token") []) with
    | error e => simpa [Plan.raise, execute] using hlater
    | ok r =>
      obtain ⟨sts, valid⟩ := r
      cases valid with
      | false =>
        simp only [List.append_nil]
        rcases ha.rejected hconsume with rfl | ⟨rfl, token', expires, hlatest, hexpired⟩
        · exact hlater
        · exact hlater.expires hlatest hexpired hlast' (execute_consumed (by simp))
      | true =>
        rcases consumeResetToken_statements hconsume with rfl | ⟨-, hfalse⟩
        · obtain ⟨rest, hrest, hnone⟩ := @resetPassword_statements prim form input
            request uid [.deleteSetting (resetKey uid)]
          rw [hrest]
          exact hlater.consumes (execute_consumed hnone)
        · cases hfalse

theorem Accounted.mint (ha : Accounted prim t h last) (email token : Str) (now : Datetime) :
    Accounted prim (execute (mintReset prim t email token now) t).tables
      (h ++ mintEvents prim t email token now) last := by
  unfold mintReset mintEvents
  cases t.userByEmail (prim.lower (strip email)) with
  | none => simpa [execute] using ha
  | some user =>
    cases hdigest : hashToken prim token with
    | error e => simpa [execute] using ha
    | ok digest =>
      cases now.add RESET_TOKEN_TTL with
      | none => simpa [execute] using ha
      | some expires =>
        exact ha.mints hdigest (execute_minted (isAscii_pendingReset digest expires))

/-- No pending reset is written but by a submission or a mint. -/
theorem step_settings_kept {a : Action} (hresume : ∀ i form input, a ≠ .resume i form input)
    (hmint : ∀ email token now, a ≠ .mint email token now) (uid : Int) :
    (step prim allowSignup σ a).tables.setting (resetKey uid) =
      σ.tables.setting (resetKey uid) := by
  have hstepped := step_stepped prim allowSignup σ a
  generalize console.step prim allowSignup σ a = σ' at hstepped ⊢
  cases hstepped with
  | arrived free loaded tables =>
    rw [tables]
    exact loaded.setting_kept
  | entered was passed tables => rw [tables]
  | resumed => exact absurd rfl (hresume _ _ _)
  | dropped tables => rw [tables]
  | minted => exact absurd rfl (hmint _ _ _)
  | stayed tables => rw [tables]

theorem Accounted.step (ha : Accounted prim σ.tables h last) (hle : last ≤ last') (a : Action)
    (htimes : ∀ d ∈ resetTimes σ a, last ≤ d.us ∧ d.us ≤ last') :
    Accounted prim (step prim allowSignup σ a).tables (h ++ resetEvents prim σ a) last' := by
  have hlater := ha.later hle
  cases a with
  | mint email token now => exact hlater.mint email token now
  | resume i form input =>
    cases hp : σ.suspended i with
    | none =>
      unfold console.step resetEvents
      simpa only [hp, List.append_nil] using hlater
    | some p =>
      rw [(step_resume_pending hp).2]
      simp only [resetTimes, hp] at htimes
      simp only [resetEvents, hp]
      by_cases hhandler : p.handler = .resetPassword
      · rw [if_pos hhandler] at htimes ⊢
        obtain ⟨hlast, hlast'⟩ := htimes _ (List.mem_singleton_self _)
        have hplan : plan prim σ.tables σ.loginLimiter p form input =
            handleResetPassword prim σ.tables p.request form input := by
          unfold plan
          rw [hhandler]
        rw [hplan]
        exact ha.submission hlast hlast' p.request
      · rw [if_neg hhandler, List.append_nil]
        exact hlater.same (plan_setting_kept hhandler)
  | _ =>
    show Accounted prim _ (h ++ []) last'
    rw [List.append_nil]
    exact hlater.same (step_settings_kept (by simp) (by simp))

theorem resetTimes_cases (σ : State) (a : Action) :
    resetTimes σ a = [] ∨ ∃ d, resetTimes σ a = [d] := by
  unfold resetTimes
  split
  · exact .inr ⟨_, rfl⟩
  · split
    · exact .inl rfl
    · split
      · exact .inr ⟨_, rfl⟩
      · exact .inl rfl
  · exact .inl rfl

end Steps

/-! ## Each token once -/

/-- A token of the user is minted. -/
def ResetEvent.mints (uid : Int) (token : Str) : ResetEvent → Bool
  | minted userId s _ => userId == uid && s == token
  | consumed _ _ => false

/-- It is consumed. -/
def ResetEvent.consumes (uid : Int) (token : Str) : ResetEvent → Bool
  | minted _ _ _ => false
  | consumed userId s => userId == uid && s == token

/-- What is consumed is what was minted last. -/
inductive SingleUse : List ResetEvent → Prop
  | nil : SingleUse []
  | minted {h : List ResetEvent} (before : SingleUse h) (uid : Int) (token : Str)
      (expires : Datetime) : SingleUse (h ++ [.minted uid token expires])
  | consumed {h : List ResetEvent} (before : SingleUse h) {uid : Int} {token : Str}
      {expires : Datetime} (pending : latest h uid = some (.minted uid token expires)) :
      SingleUse (h ++ [.consumed uid token])

/-- No token is consumed more often than it was minted; one that is pending, less often. -/
theorem SingleUse.count {h : List ResetEvent} (hs : SingleUse h) (uid : Int) (token : Str) :
    h.countP (ResetEvent.consumes uid token) +
      (if (latest h uid).any (ResetEvent.mints uid token) then 1 else 0) ≤
        h.countP (ResetEvent.mints uid token) := by
  induction hs with
  | nil => simp [latest]
  | minted before u s expires ih =>
    rw [latest_append, List.countP_append, List.countP_append]
    by_cases huid : u = uid
    · by_cases htoken : s = token
      · simp [ResetEvent.userId, ResetEvent.consumes, ResetEvent.mints, huid, htoken]
        omega
      · simp [ResetEvent.userId, ResetEvent.consumes, ResetEvent.mints, huid, htoken]
        omega
    · simpa [ResetEvent.userId, ResetEvent.consumes, ResetEvent.mints, huid] using ih
  | @consumed h before u s expires pending ih =>
    rw [latest_append, List.countP_append, List.countP_append]
    by_cases huid : u = uid
    · subst huid
      by_cases htoken : s = token
      · -- it was pending, and is no longer
        rw [pending] at ih
        simpa [ResetEvent.userId, ResetEvent.consumes, ResetEvent.mints, htoken] using ih
      · simp [ResetEvent.userId, ResetEvent.consumes, ResetEvent.mints, htoken]
        omega
    · simpa [ResetEvent.userId, ResetEvent.consumes, ResetEvent.mints, huid] using ih

section Runs
variable {prim : Primitives} {allowSignup : Bool} {t : Tables} {σ : State}
  {h : List ResetEvent} {last last' : Int} {form : Form} {input : Input}

theorem SingleUse.submission (hs : SingleUse h) (ha : Accounted prim t h last)
    (hinjective : ∀ s s' b, hashToken prim s = .ok b → hashToken prim s' = .ok b → s = s')
    (hlast : last ≤ input.consumed.us) :
    SingleUse (h ++ submissionEvents prim t form input) := by
  unfold submissionEvents
  split
  · simpa using hs
  · split
    · next sts hconsume =>
      obtain ⟨expires, hlatest, -⟩ := (ha.consumes_iff hinjective hlast).mp ⟨sts, hconsume⟩
      exact hs.consumed hlatest
    · simpa using hs

theorem SingleUse.step (hs : SingleUse h) (ha : Accounted prim σ.tables h last)
    (hinjective : ∀ s s' b, hashToken prim s = .ok b → hashToken prim s' = .ok b → s = s')
    (a : Action) (htimes : ∀ d ∈ resetTimes σ a, last ≤ d.us) :
    SingleUse (h ++ resetEvents prim σ a) := by
  unfold resetEvents
  split
  · unfold mintEvents
    split
    · exact hs.minted _ _ _
    · simpa using hs
  · split
    · simpa using hs
    · next p hp =>
      split
      · next hhandler =>
        apply hs.submission ha hinjective
        apply htimes
        simp [resetTimes, hp, hhandler]
      · simpa using hs
  · simpa using hs

/-- After any run whose looks at the clock are in order, what is pending is accounted for,
    and what was consumed was pending. -/
theorem run_accounted
    (hinjective : ∀ s s' b, hashToken prim s = .ok b → hashToken prim s' = .ok b → s = s')
    {actions : List Action} (ha : Accounted prim σ.tables h last) (hs : SingleUse h)
    (hordered : (collect (step prim allowSignup) resetTimes σ actions).Pairwise
      fun d d' => d.us ≤ d'.us)
    (hlast : ∀ d ∈ collect (step prim allowSignup) resetTimes σ actions, last ≤ d.us)
    (hle : last ≤ last')
    (hlast' : ∀ d ∈ collect (step prim allowSignup) resetTimes σ actions, d.us ≤ last') :
    Accounted prim (actions.foldl (step prim allowSignup) σ).tables
        (h ++ collect (step prim allowSignup) (resetEvents prim) σ actions) last' ∧
      SingleUse (h ++ collect (step prim allowSignup) (resetEvents prim) σ actions) := by
  induction actions generalizing σ h last with
  | nil => simpa [collect] using ⟨ha.later hle, hs⟩
  | cons a actions ih =>
    simp only [collect, List.pairwise_append, List.mem_append] at hordered hlast hlast'
    obtain ⟨-, hrest, hcross⟩ := hordered
    have huse := hs.step ha hinjective a fun d hd => hlast d (.inl hd)
    rw [collect, ← List.append_assoc, List.foldl_cons]
    rcases resetTimes_cases σ a with hnone | ⟨d, hd⟩
    · have hstep : Accounted prim (step prim allowSignup σ a).tables (h ++ resetEvents prim σ a)
          last := ha.step (le_refl last) a (by simp [hnone])
      exact ih hstep huse hrest (fun d hd => hlast d (.inr hd)) hle
        fun d hd => hlast' d (.inr hd)
    · -- the next of the steps are from this look at the clock on
      have hmem : d ∈ resetTimes σ a := by simp [hd]
      have hd' := hlast d (.inl hmem)
      have hstep : Accounted prim (step prim allowSignup σ a).tables (h ++ resetEvents prim σ a)
          d.us := ha.step hd' a (by simpa [hd] using hd')
      exact ih hstep huse hrest (hcross d hmem) (hlast' d (.inl hmem))
        fun d hd => hlast' d (.inr hd)

/-! ## What passwords a reset changes -/

/-- The user whose password a reset changes, with the token it was submitted with. -/
def resetChanges (prim : Primitives) (σ : State) : Action → List (Int × Str)
  | .resume i form input =>
    match σ.suspended i with
    | none => []
    | some p =>
      if p.handler = .resetPassword then
        (plan prim σ.tables σ.loginLimiter p form input).statements.filterMap fun
          | .updatePasswordHash uid _ => some (uid, form.get (lit "token") [])
          | _ => none
      else []
  | _ => []

theorem resetChanges_count (prim : Primitives) (σ : State) (a : Action) (uid : Int)
    (token : Str) : (resetChanges prim σ a).count (uid, token) ≤
      (resetEvents prim σ a).countP (ResetEvent.consumes uid token) := by
  cases a with
  | resume i form input =>
    unfold resetChanges resetEvents
    simp only
    cases σ.suspended i with
    | none => exact Nat.le_refl 0
    | some p =>
      simp only
      split
      · next hhandler =>
        have heff := plan_effect prim σ.tables σ.loginLimiter p form input
        generalize (plan prim σ.tables σ.loginLimiter p form input).statements = sts at heff ⊢
        rw [hhandler] at heff
        cases heff with
        | nothing => exact Nat.zero_le _
        | consumed key => exact Nat.zero_le _
        | configured s given auth st acts => cases acts
        | reset uid' resets passwordHash e =>
          have hevents : submissionEvents prim σ.tables form input =
              [.consumed uid' (form.get (lit "token") [])] := by
            unfold submissionEvents
            simp only [resets.submitted, resets.consumed]
          rw [hevents]
          show ([(uid', form.get (lit "token") [])] : List (Int × Str)).count (uid, token) ≤ _
          simp [List.count_cons, ResetEvent.consumes, Prod.ext_iff]
      · exact Nat.le_refl 0
  | _ => exact Nat.zero_le _

/-- Over a run, no more passwords are changed than tokens are consumed. -/
theorem changes_le_consumed (prim : Primitives) (allowSignup : Bool) (σ : State)
    (actions : List Action) (uid : Int) (token : Str) :
    (collect (step prim allowSignup) (resetChanges prim) σ actions).count (uid, token) ≤
      (collect (step prim allowSignup) (resetEvents prim) σ actions).countP
        (ResetEvent.consumes uid token) := by
  induction actions generalizing σ with
  | nil => exact Nat.le_refl 0
  | cons a actions ih =>
    simp only [collect, List.count_append, List.countP_append]
    exact Nat.add_le_add (resetChanges_count prim σ a uid token) (ih _)

end Runs

/-- In every run of the Console and of the operator's mints, with the looks at the clock in
    order: a submission is accepted exactly of the token that was minted last for its user,
    not consumed since, and not expired, both times in milliseconds; with a user's token its
    password is changed no more often than that token was minted for that user; and another
    token is turned down with nothing written. -/
theorem resets_single_use {prim : Primitives} (allowSignup : Bool)
    (hinjective : ∀ s s' b, hashToken prim s = .ok b → hashToken prim s' = .ok b → s = s')
    {σ : State} (hnone : ∀ uid, σ.tables.setting (resetKey uid) = none) {actions : List Action}
    (hordered : (collect (step prim allowSignup) resetTimes σ actions).Pairwise
      fun d d' => d.us ≤ d'.us) :
    let t := (actions.foldl (step prim allowSignup) σ).tables
    let h := collect (step prim allowSignup) (resetEvents prim) σ actions
    (∀ uid token (input : Input),
      (∀ d ∈ collect (step prim allowSignup) resetTimes σ actions, d.us ≤ input.consumed.us) →
      ((∃ sts, consumeResetToken prim t input uid token = .ok (sts, true)) ↔
        ∃ expires, latest h uid = some (.minted uid token expires) ∧
          nearestDouble (input.consumed.timestamp * 1000) ≤ expires.unixMs) ∧
      ∀ token' expires, latest h uid = some (.minted uid token' expires) → token ≠ token' →
        nearestDouble (input.consumed.timestamp * 1000) ≤ expires.unixMs →
        ∀ sts valid, consumeResetToken prim t input uid token = .ok (sts, valid) →
          sts = [] ∧ valid = false) ∧
    ∀ uid token,
      (collect (step prim allowSignup) (resetChanges prim) σ actions).count (uid, token) ≤
        h.countP (ResetEvent.mints uid token) := by
  simp only
  have hempty : Accounted prim σ.tables [] (-62135596800000000) := accounted_nil hnone
  refine ⟨?_, ?_⟩
  · intro uid token input hnow
    obtain ⟨ha, -⟩ := run_accounted hinjective hempty .nil hordered
      (fun d _ => d.lower) input.consumed.lower hnow
    rw [List.nil_append] at ha
    refine ⟨ha.consumes_iff hinjective le_rfl, ?_⟩
    intro token' expires hlatest hne hunexpired sts valid hconsume
    exact ha.other_token hinjective hlatest hne hunexpired hconsume
  · intro uid token
    obtain ⟨-, huse⟩ := run_accounted hinjective hempty .nil hordered
      (fun d _ => d.lower) (by decide : (-62135596800000000 : Int) ≤ 253402300800000000)
      fun d _ => d.upper.le
    have hcount := huse.count uid token
    have hchanges := changes_le_consumed prim allowSignup σ actions uid token
    rw [List.nil_append] at hcount
    omega

/-! ## A reset written out -/

/-- A whole request of the reset page, for user 1. -/
def submitReset (token : String) (input : Input) : List Action :=
  Action.whole 0 .resetPassword (.withToken "")
    (.ofFields [("uid", "1"), ("token", token), ("password", "another password"),
      ("password_confirm", "another password")]) input

theorem hashToken_plain_injective (s s' : Str) (b : Bytes)
    (h : hashToken .plain s = .ok b) (h' : hashToken .plain s' = .ok b) : s = s' := by
  have hbytes : ∀ s, hashToken .plain s = .ok b → encodeUtf8 s = some b := by
    intro s hs
    unfold hashToken at hs
    split at hs
    · cases hs
    · next hencode => exact hencode.trans (congrArg some (Except.ok.inj hs))
  exact encodeUtf8_injective (hbytes s h) (hbytes s' h')

/-- Ann is handed a token, a wrong one is submitted, and then hers, twice. -/
def annResets : List Action :=
  .mint (lit "ann@example.com") (lit "token") .epoch ::
    submitReset "wrong" {} ++ submitReset "token" {} ++ submitReset "token" {}

example : collect (step .plain false) (resetChanges .plain) { tables := annTables true }
    annResets = [(1, lit "token")] := by decide +kernel

theorem resets_single_use_ann :
    (collect (step .plain false) (resetChanges .plain) { tables := annTables true }
      annResets).count (1, lit "token") ≤
      (collect (step .plain false) (resetEvents .plain) { tables := annTables true }
        annResets).countP (ResetEvent.mints 1 (lit "token")) :=
  (resets_single_use false hashToken_plain_injective (fun _ => rfl)
    (by decide +kernel)).2 1 (lit "token")

/-- The time at which Ann's token is minted, and one 200 microseconds before its hour is
    over. -/
def minted500 : Datetime := ⟨500, by decide, by decide⟩

def within200 : Datetime := ⟨3600000300, by decide, by decide⟩

/-- The token that was minted last is turned down before it expires: its expiry is stored
    in whole milliseconds, which are cut off. -/
theorem refused_within_hour :
    let actions := [Action.mint (lit "ann@example.com") (lit "token") minted500]
    let t := (actions.foldl (step .plain false) { tables := annTables true }).tables
    (∃ expires, latest (collect (step .plain false) (resetEvents .plain)
        { tables := annTables true } actions) 1 = some (.minted 1 (lit "token") expires) ∧
      within200.us < expires.us) ∧
    (consumeResetToken .plain t { consumed := within200 } 1 (lit "token")).toOption.map
      Prod.snd = some false :=
  ⟨⟨⟨3600000500, by decide, by decide⟩, rfl, by decide⟩, by decide +kernel⟩

end console
end HookGuard
