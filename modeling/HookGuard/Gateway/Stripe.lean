import HookGuard.Core.GatewaySig
import HookGuard.Gateway.Verifier

/- Stripe's signature shape (`hookguard_gateway/providers/stripe.py`).

   `parseHeader` reads the header, `freshness` is the replay check and `anyMatch`
   the loop over the candidates. On a header that can be read, `verify` is those
   three in turn (`verify_readable`); on any other it raises `VerificationError`
   (`verify_unreadable`). The conversions that can raise something else are the
   difference of a float and an int, which overflows, and the ASCII encoding of a
   timestamp that `int` has read. -/
namespace HookGuard
open Py

namespace stripe

def HEADER : Str := lit "Stripe-Signature"

/-- One part of the header, read into the timestamp and the signatures so far. -/
def readPart (acc : Str × List Str) (part : Str) : Str × List Str :=
  match partition 61 (strip part) with
  | (_, none) => acc
  | (key, some value) =>
    if key = lit "t" then (value, acc.2)
    else if key = lit "v1" then (acc.1, acc.2 ++ [value])
    else acc

/-- `_parse_header`. -/
def parseHeader (header : Str) : Str × List Str := (header.splitOn 44).foldl readPart ([], [])

structure StripeVerifier where
  secret : Bytes
  replayWindow : goduration.Timedelta := .zero

/-- `_build`. -/
def build (route : Route) (secret : Str) : Except Exc StripeVerifier :=
  if secret = [] then .error (.valueError (msg "empty secret"))
  else
    match
      if route.replayWindow ≠ [] then goduration.parseGoDuration route.replayWindow
      else .ok .zero
    with
    | .error (.goDurationError m) => .error (.valueError (.text (lit "replay_window: ") :: m))
    | .error e => .error e
    | .ok window =>
      match encodeUtf8 secret with
      | some s => .ok ⟨s, window⟩
      | none => .error .unicodeEncodeError

/-- The replay check: the two times are floats, their difference and the window in
    seconds too. -/
def freshness (round : ℚ → ℚ) (window : goduration.Timedelta) (now : Datetime) (ts : Int) :
    Except Exc Unit :=
  if goduration.Timedelta.zero.us < window.us then
    if !fitsDouble ts then .error .overflowError
    else if round (window.us / 10 ^ 6) < |round (round (now.us / 10 ^ 6) - round ts)| then
      .error (verificationError "timestamp outside replay window")
    else .ok ()
  else .ok ()

/-- The loop over the candidates; one that does not decode is skipped. -/
def anyMatch (expected : Bytes) : List Str → Except Exc Unit
  | [] => .error (verificationError "no matching signature")
  | candidate :: rest =>
    match decodeHex candidate with
    | .error e => if e.isValueError then anyMatch expected rest else .error e
    | .ok got => if got = expected then .ok () else anyMatch expected rest

/-- What is signed: the timestamp, a dot, the body. -/
def signedPayload (timestamp body : Bytes) : Bytes := timestamp ++ bytesLit "." ++ body

section Verify
variable (hmac : Bytes → Bytes → Bytes) (round : ℚ → ℚ)

/-- `StripeVerifier.verify`. -/
def verify (v : StripeVerifier) (rawBody : Bytes) (headers : Headers) (now : Datetime) :
    Except Exc Unit :=
  let header := (headers.get HEADER).getD []
  if header = [] then .error (verificationError "missing Stripe-Signature header")
  else
    let (timestamp, signatures) := parseHeader header
    if timestamp = [] ∨ signatures = [] then
      .error (verificationError "malformed Stripe-Signature header")
    else match pyInt timestamp with
      | none => .error (verificationError "invalid timestamp")
      | some ts =>
        match freshness round v.replayWindow now ts with
        | .error e => .error e
        | .ok () =>
          match encodeAscii timestamp with
          | none => .error .unicodeEncodeError
          | some t => anyMatch (hmac v.secret (signedPayload t rawBody)) signatures

end Verify

/-! ## Lemmas -/

/-- The headers carry a timestamp, which `int` reads as `ts`, and candidates. -/
structure Reads (headers : Headers) (timestamp : Str) (signatures : List Str) (ts : Int) :
    Prop where
  parse : parseHeader ((headers.get HEADER).getD []) = (timestamp, signatures)
  timestamp_ne : timestamp ≠ []
  signatures_ne : signatures ≠ []
  int : pyInt timestamp = some ts

theorem Reads.unique {headers : Headers} {t t' : Str} {sigs sigs' : List Str} {ts ts' : Int}
    (h : Reads headers t sigs ts) (h' : Reads headers t' sigs' ts') :
    t = t' ∧ sigs = sigs' ∧ ts = ts' := by
  obtain ⟨rfl, rfl⟩ := Prod.mk.inj (h.parse.symm.trans h'.parse)
  exact ⟨rfl, rfl, Option.some.inj (h.int.symm.trans h'.int)⟩

/-- The loop ends well where some candidate decodes to the MAC. -/
theorem anyMatch_ok_iff {expected : Bytes} {candidates : List Str} :
    anyMatch expected candidates = .ok () ↔ ∃ c ∈ candidates, decodeHex c = .ok expected := by
  induction candidates with
  | nil => simp [anyMatch]
  | cons c rest ih =>
    rw [anyMatch, List.exists_mem_cons_iff]
    cases hd : decodeHex c with
    | error e => simp [decodeHex_error hd, ih]
    | ok got => by_cases hg : got = expected <;> simp [hg, ih]

theorem anyMatch_cases (expected : Bytes) (candidates : List Str) :
    anyMatch expected candidates = .ok () ∨
      anyMatch expected candidates = .error (verificationError "no matching signature") := by
  induction candidates with
  | nil => exact .inr rfl
  | cons c rest ih =>
    rw [anyMatch]
    cases hd : decodeHex c with
    | error e =>
      -- a candidate that does not decode is skipped
      simp only [decodeHex_error hd, if_true]
      exact ih
    | ok got =>
      by_cases hg : got = expected
      · simp only [hg, if_true]
        exact .inl trivial
      · simp only [hg, if_false]
        exact ih

theorem anyMatch_contract {expected : Bytes} {candidates : List Str} :
    VerifierContract (anyMatch expected candidates) :=
  (anyMatch_cases expected candidates).imp_right fun h => ⟨_, h⟩

theorem freshness_cases (round : ℚ → ℚ) (window : goduration.Timedelta) (now : Datetime)
    (ts : Int) :
    (0 < window.us ∧ fitsDouble ts = false ∧
      freshness round window now ts = .error .overflowError) ∨
    ((0 < window.us → fitsDouble ts = true) ∧
      (freshness round window now ts = .ok () ∨ freshness round window now ts =
        .error (verificationError "timestamp outside replay window"))) := by
  unfold freshness
  by_cases hw : goduration.Timedelta.zero.us < window.us
  · rw [if_pos hw]
    cases hf : fitsDouble ts with
    | false => exact .inl ⟨hw, rfl, rfl⟩
    | true =>
      refine .inr ⟨fun _ => rfl, ?_⟩
      by_cases hs : round (window.us / 10 ^ 6) < |round (round (now.us / 10 ^ 6) - round ts)|
      · right
        simp [hs]
      · left
        simp [hs]
  · rw [if_neg hw]
    exact .inr ⟨fun h => absurd h hw, .inl rfl⟩

theorem freshness_ok_iff {round : ℚ → ℚ} {window : goduration.Timedelta} {now : Datetime}
    {ts : Int} :
    freshness round window now ts = .ok () ↔
      (0 < window.us → fitsDouble ts = true ∧
        |round (round (now.us / 10 ^ 6) - round ts)| ≤ round (window.us / 10 ^ 6)) := by
  unfold freshness
  by_cases hw : 0 < window.us
  · cases hf : fitsDouble ts with
    | false => simp [goduration.Timedelta.zero, hw]
    | true =>
      by_cases hs : |round (round (now.us / 10 ^ 6) - round ts)| ≤ round (window.us / 10 ^ 6)
      · simp [goduration.Timedelta.zero, hw, not_lt.mpr hs, hs]
      · simp [goduration.Timedelta.zero, hw, not_le.mp hs, hs]
  · simp [goduration.Timedelta.zero, hw]

theorem freshness_exact {window : goduration.Timedelta} {now : Datetime} {ts : Int} :
    freshness id window now ts =
      if 0 < window.us then
        if fitsDouble ts = false then .error .overflowError
        else if window.us < |now.us - ts * 10 ^ 6| then
          .error (verificationError "timestamp outside replay window")
        else .ok ()
      else .ok () := by
  have hcmp : ((window.us : ℚ) / 10 ^ 6 < |(now.us : ℚ) / 10 ^ 6 - ts|) ↔
      window.us < |now.us - ts * 10 ^ 6| := by
    -- both sides are whole microseconds over a million
    have hdiff : (now.us : ℚ) / 10 ^ 6 - ts = ((now.us - ts * 10 ^ 6 : ℤ) : ℚ) / 10 ^ 6 := by
      push_cast
      field_simp
      ring
    rw [hdiff, abs_div, abs_of_pos (show (0 : ℚ) < 10 ^ 6 by norm_num),
      div_lt_div_iff_of_pos_right (by norm_num), ← Int.cast_abs, Int.cast_lt]
  unfold freshness
  simp only [goduration.Timedelta.zero, id_eq, hcmp, Bool.not_eq_true']

section Verify
variable {hmac : Bytes → Bytes → Bytes} {round : ℚ → ℚ} {v : StripeVerifier} {body : Bytes}
  {headers : Headers} {now : Datetime}

/-- On headers that read, the check is the replay check, the encoding of the
    timestamp, and the candidates. -/
theorem verify_readable {t : Str} {sigs : List Str} {ts : Int} (h : Reads headers t sigs ts) :
    verify hmac round v body headers now =
      match freshness round v.replayWindow now ts with
      | .error e => .error e
      | .ok () =>
        match encodeAscii t with
        | none => .error .unicodeEncodeError
        | some b => anyMatch (hmac v.secret (signedPayload b body)) sigs := by
  obtain ⟨hparse, ht, hs, hint⟩ := h
  have hne : (headers.get HEADER).getD [] ≠ [] := by
    intro h0
    rw [h0] at hparse
    exact ht (Prod.mk.inj hparse).1.symm
  simp only [verify, hne, if_false, hparse, ht, hs, or_self, hint]

theorem verify_unreadable (h : ∀ t sigs ts, ¬ Reads headers t sigs ts) :
    ∃ m, verify hmac round v body headers now = .error (.verificationError m) := by
  unfold verify
  simp only
  split
  · -- no header
    exact ⟨_, rfl⟩
  · split
    · -- no timestamp, or no signature
      exact ⟨_, rfl⟩
    · next hne =>
      rw [not_or] at hne
      cases hint : pyInt (parseHeader ((headers.get HEADER).getD [])).1 with
      | none => exact ⟨_, rfl⟩
      | some ts => exact absurd ⟨rfl, hne.1, hne.2, hint⟩ (h _ _ ts)

/-- What an accepted request carries. -/
theorem verify_ok_iff :
    verify hmac round v body headers now = .ok () ↔
      ∃ t sigs ts b, Reads headers t sigs ts ∧ freshness round v.replayWindow now ts = .ok () ∧
        encodeAscii t = some b ∧
        ∃ c ∈ sigs, decodeHex c = .ok (hmac v.secret (signedPayload b body)) := by
  by_cases h : ∃ t sigs ts, Reads headers t sigs ts
  · obtain ⟨t, sigs, ts, hr⟩ := h
    rw [verify_readable hr]
    refine ⟨?_, ?_⟩
    · -- an accepted request passed each of the three steps
      intro hok
      cases hf : freshness round v.replayWindow now ts with
      | error e => simp [hf] at hok
      | ok u =>
        cases ha : encodeAscii t with
        | none => simp [hf, ha] at hok
        | some b =>
          simp only [hf, ha] at hok
          exact ⟨t, sigs, ts, b, hr, hf, ha, anyMatch_ok_iff.mp hok⟩
    · -- what the header gives is determined, so the steps are those of the verifier
      intro hcarries
      obtain ⟨t', sigs', ts', b, hr', hf, ha, hc⟩ := hcarries
      obtain ⟨rfl, rfl, rfl⟩ := hr.unique hr'
      simp only [hf, ha]
      exact anyMatch_ok_iff.mpr hc
  · refine iff_of_false ?_ fun ⟨t, sigs, ts, _, hr, _⟩ => h ⟨t, sigs, ts, hr⟩
    obtain ⟨m, hm⟩ : ∃ m, verify hmac round v body headers now = .error (.verificationError m) :=
      verify_unreadable fun t sigs ts hr => h ⟨t, sigs, ts, hr⟩
    rw [hm]
    intro h
    cases h

/-- The verifier keeps its contract unless the replay check overflows, or a fresh
    timestamp is not ASCII. -/
theorem verify_contract_iff :
    VerifierContract (verify hmac round v body headers now) ↔
      ∀ t sigs ts, Reads headers t sigs ts →
        (0 < v.replayWindow.us → fitsDouble ts = true) ∧
        (freshness round v.replayWindow now ts = .ok () → isAscii t = true) := by
  by_cases h : ∃ t sigs ts, Reads headers t sigs ts
  · obtain ⟨t, sigs, ts, hr⟩ := h
    -- the header reads in one way only
    have hone : (∀ t' sigs' ts', Reads headers t' sigs' ts' →
        (0 < v.replayWindow.us → fitsDouble ts' = true) ∧
        (freshness round v.replayWindow now ts' = .ok () → isAscii t' = true)) ↔
        (0 < v.replayWindow.us → fitsDouble ts = true) ∧
        (freshness round v.replayWindow now ts = .ok () → isAscii t = true) := by
      refine ⟨?_, ?_⟩
      · intro hall
        exact hall t sigs ts hr
      · intro hc t' sigs' ts' hr'
        obtain ⟨rfl, rfl, rfl⟩ := hr.unique hr'
        exact hc
    rw [hone, verify_readable hr]
    rcases freshness_cases round v.replayWindow now ts with ⟨hw, hf, he⟩ | ⟨hfits, hok | hstale⟩
    · simp [he, hw, hf]
    · simp only [hok, forall_const]
      cases ha : isAscii t with
      | false => simp [encodeAscii, ha]
      | true =>
        simp only [encodeAscii, ha, if_true]
        exact iff_of_true anyMatch_contract ⟨hfits, trivial⟩
    · simpa [hstale, verificationError] using hfits
  · refine iff_of_true (.inr (verify_unreadable fun t sigs ts hr => h ⟨t, sigs, ts, hr⟩)) ?_
    exact fun t sigs ts hr => absurd ⟨t, sigs, ts, hr⟩ h

end Verify

end stripe
end HookGuard
