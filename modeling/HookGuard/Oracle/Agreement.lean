import HookGuard.Core.GoDurationLanguage
import HookGuard.Gateway.Stripe
import HookGuard.Oracle.Stripe
import Mathlib.Data.Fintype.EquivFin

/- The Python and the Go verifier on one request.

   What a verifier makes of a Stripe header is a `Reading`: the timestamp's octets,
   its value, and the signatures that decode. Acceptance is the same function of a
   reading on both sides (`Reading.Accepts`), and each verifier accepts what it can
   read and that function accepts (`py_accepts_iff`, `go_accepts_iff`). So the two
   verifiers agree on a header, whatever the secret, the body, the window and the
   time, exactly when they make the same of it, or neither makes anything that could
   be accepted (`verify_agree_iff`).

   They do not on all headers: `int` reads underscores and white space that
   `ParseInt` refuses, and has no int64 bound; Go trims encoded white space and
   keeps the control characters U+001C to U+001F, which Python trims. -/
namespace HookGuard
open Py

namespace oracle

structure Reading where
  timestamp : Bytes
  value : Int
  candidates : List Bytes

/-- A reading that the request's time and MAC bear out. -/
def Reading.Accepts (r : Reading) (hmac : Bytes → Bytes → Bytes) (secret body : Bytes)
    (window now : Int) : Prop :=
  (0 < window → |now - r.value * 10 ^ 6| ≤ window) ∧
    hmac secret (r.timestamp ++ bytesLit "." ++ body) ∈ r.candidates

/-- The two readings are of one timestamp and the same signatures. -/
def Reading.Same (r r' : Reading) : Prop :=
  r.timestamp = r'.timestamp ∧ ∀ c, c ∈ r.candidates ↔ c ∈ r'.candidates

def pyReading (header : Str) : Option Reading :=
  let (t, sigs) := stripe.parseHeader header
  if t = [] ∨ sigs = [] then none
  else match pyInt t, encodeAscii t with
    | some ts, some b => some ⟨b, ts, sigs.filterMap fun c => (decodeHex c).toOption⟩
    | _, _ => none

def goReading (header : Str) : Option Reading :=
  let (t, sigs) := parseStripeSig header
  if t = [] ∨ sigs = [] then none
  else match parseInt t with
    | some ts => some ⟨t.map UInt8.ofNat, ts, sigs.filterMap decodeString⟩
    | none => none

/-- The header is the same to both verifiers, as far as either can accept it. -/
def Agrees (header : Str) : Prop :=
  (∀ r, pyReading header = some r → r.candidates ≠ [] →
    ∃ r', goReading header = some r' ∧ r.Same r') ∧
  ∀ r', goReading header = some r' → r'.candidates ≠ [] →
    ∃ r, pyReading header = some r ∧ r.Same r'

/-! ## Each verifier accepts by its reading -/

theorem pyReading_some {header : Str} {r : Reading} :
    pyReading header = some r ↔
      ∃ t sigs, stripe.parseHeader header = (t, sigs) ∧ t ≠ [] ∧ sigs ≠ [] ∧
        pyInt t = some r.value ∧ encodeAscii t = some r.timestamp ∧
        r.candidates = sigs.filterMap fun c => (decodeHex c).toOption := by
  obtain ⟨t, sigs, hp⟩ : ∃ t sigs, stripe.parseHeader header = (t, sigs) := ⟨_, _, rfl⟩
  simp only [pyReading, hp, Prod.mk.injEq]
  refine ⟨?_, ?_⟩
  · intro h
    split at h
    · cases h
    · next hne =>
      rw [not_or] at hne
      split at h
      · next ts b hint hascii =>
        simp only [Option.some.injEq] at h
        subst h
        exact ⟨t, sigs, ⟨rfl, rfl⟩, hne.1, hne.2, hint, hascii, rfl⟩
      · cases h
  · intro h
    obtain ⟨t', sigs', ⟨rfl, rfl⟩, ht, hs, hint, hascii, hc⟩ := h
    rw [if_neg (not_or.mpr ⟨ht, hs⟩)]
    simp only [hint, hascii, ← hc]

theorem goReading_some {header : Str} {r : Reading} :
    goReading header = some r ↔
      ∃ t sigs, parseStripeSig header = (t, sigs) ∧ t ≠ [] ∧ sigs ≠ [] ∧
        parseInt t = some r.value ∧ r.timestamp = t.map UInt8.ofNat ∧
        r.candidates = sigs.filterMap decodeString := by
  obtain ⟨t, sigs, hp⟩ : ∃ t sigs, parseStripeSig header = (t, sigs) := ⟨_, _, rfl⟩
  simp only [goReading, hp, Prod.mk.injEq]
  refine ⟨?_, ?_⟩
  · intro h
    split at h
    · cases h
    · next hne =>
      rw [not_or] at hne
      split at h
      · next ts hint =>
        simp only [Option.some.injEq] at h
        subst h
        exact ⟨t, sigs, ⟨rfl, rfl⟩, hne.1, hne.2, hint, rfl, rfl⟩
      · cases h
  · intro h
    obtain ⟨t', sigs', ⟨rfl, rfl⟩, ht, hs, hint, hb, hc⟩ := h
    rw [if_neg (not_or.mpr ⟨ht, hs⟩)]
    simp only [hint, ← hc, ← hb]

theorem mem_decoded {sigs : List Str} {x : Bytes} :
    x ∈ sigs.filterMap (fun c => (decodeHex c).toOption) ↔ ∃ c ∈ sigs, decodeHex c = .ok x := by
  rw [List.mem_filterMap]
  have heq : ∀ c, (decodeHex c).toOption = some x ↔ decodeHex c = .ok x := by
    intro c
    cases decodeHex c <;> simp [Except.toOption]
  simp only [heq]

theorem fitsDouble_of_fresh {window : goduration.Timedelta} {now : Datetime} {ts : Int}
    (h : |now.us - ts * 10 ^ 6| ≤ window.us) : fitsDouble ts = true := by
  have hw := window.upper
  have hlo := now.lower
  have hhi := now.upper
  rw [abs_le] at h
  have hsmall : ts.natAbs < 10 ^ 18 := by omega
  have hbound : 10 ^ 18 ≤ 2 ^ 1024 - 2 ^ 970 := by decide +kernel
  exact decide_eq_true (lt_of_lt_of_le hsmall hbound)

theorem py_accepts_iff {hmac : Bytes → Bytes → Bytes} {v : stripe.StripeVerifier} {body : Bytes}
    {headers : Headers} {now : Datetime} :
    stripe.verify hmac id v body headers now = .ok () ↔
      ∃ r, pyReading ((headers.get stripe.HEADER).getD []) = some r ∧
        r.Accepts hmac v.secret body v.replayWindow.us now.us := by
  have hfresh : ∀ ts, stripe.freshness id v.replayWindow now ts = .ok () ↔
      (0 < v.replayWindow.us → |now.us - ts * 10 ^ 6| ≤ v.replayWindow.us) := by
    intro ts
    rw [stripe.freshness_exact]
    by_cases hw : 0 < v.replayWindow.us
    · cases hf : fitsDouble ts with
      | false =>
        -- an overflow is far from any date
        simp only [hw, if_true, forall_const, reduceCtorEq, false_iff]
        intro h
        rw [fitsDouble_of_fresh h] at hf
        cases hf
      | true =>
        by_cases hs : v.replayWindow.us < |now.us - ts * 10 ^ 6|
        · simp only [hw, hs, if_true, Bool.true_eq_false, if_false, forall_const, reduceCtorEq,
            false_iff, not_le]
        · simp only [hw, hs, if_true, Bool.true_eq_false, if_false, forall_const, true_iff]
          omega
    · simp only [hw, if_false, false_imp_iff]
  rw [stripe.verify_ok_iff]
  refine ⟨?_, ?_⟩
  · intro h
    obtain ⟨t, sigs, ts, b, ⟨hp, ht, hs, hint⟩, hf, hb, hc⟩ := h
    exact ⟨⟨b, ts, _⟩, pyReading_some.mpr ⟨t, sigs, hp, ht, hs, hint, hb, rfl⟩,
      (hfresh ts).mp hf, mem_decoded.mpr hc⟩
  · intro h
    obtain ⟨r, hr, hwin, hmem⟩ := h
    obtain ⟨t, sigs, hp, ht, hs, hint, hb, hc⟩ := pyReading_some.mp hr
    rw [hc, mem_decoded] at hmem
    exact ⟨t, sigs, r.value, r.timestamp, ⟨hp, ht, hs, hint⟩, (hfresh _).mpr hwin, hb, hmem⟩

theorem go_accepts_iff {hmac : Bytes → Bytes → Bytes} {v : StripeVerifier} {body : Bytes}
    {headers : Headers} {now : Datetime} :
    Verify hmac v body headers now = .ok () ↔
      ∃ r, goReading ((headers.get stripe.HEADER).getD []) = some r ∧
        r.Accepts hmac v.Secret body v.ReplayWindow now.us := by
  obtain ⟨t, sigs, hp⟩ : ∃ t sigs, parseStripeSig ((headers.get stripe.HEADER).getD []) =
    (t, sigs) := ⟨_, _, rfl⟩
  have hread : (∃ r, goReading ((headers.get stripe.HEADER).getD []) = some r ∧
      r.Accepts hmac v.Secret body v.ReplayWindow now.us) ↔
      t ≠ [] ∧ sigs ≠ [] ∧ ∃ ts, parseInt t = some ts ∧
        (0 < v.ReplayWindow → |now.us - ts * 10 ^ 6| ≤ v.ReplayWindow) ∧
        ∃ c ∈ sigs, decodeString c =
          some (hmac v.Secret (t.map UInt8.ofNat ++ bytesLit "." ++ body)) := by
    refine ⟨?_, ?_⟩
    · intro h
      obtain ⟨r, hr, hwin, hmem⟩ := h
      obtain ⟨t', sigs', hp', ht, hs, hint, hb, hc⟩ := goReading_some.mp hr
      obtain ⟨rfl, rfl⟩ := Prod.mk.inj (hp.symm.trans hp')
      rw [hc, hb, List.mem_filterMap] at hmem
      exact ⟨ht, hs, r.value, hint, hwin, hmem⟩
    · intro h
      obtain ⟨ht, hs, ts, hint, hwin, hmem⟩ := h
      exact ⟨⟨t.map UInt8.ofNat, ts, _⟩, goReading_some.mpr ⟨t, sigs, hp, ht, hs, hint, rfl, rfl⟩,
        hwin, List.mem_filterMap.mpr hmem⟩
  -- a missing header is one with no timestamp
  have hempty : (headers.get stripe.HEADER).getD [] = [] → t = [] := by
    intro h0
    rw [h0] at hp
    exact (Prod.mk.inj hp).1.symm
  rw [hread]
  unfold Verify
  simp only [show lit "Stripe-Signature" = stripe.HEADER from rfl, hp, List.length_eq_zero_iff]
  by_cases ht : t = []
  · by_cases h0 : (headers.get stripe.HEADER).getD [] = [] <;> simp [h0, ht]
  · by_cases hs : sigs = []
    · simp [mt hempty ht, hs]
    · rw [if_neg (mt hempty ht), if_neg (not_or.mpr ⟨ht, hs⟩)]
      cases hint : parseInt t with
      | none => simp
      | some ts =>
        simp only [Option.some.injEq, exists_eq_left', ne_eq, ht, hs, not_false_eq_true, true_and]
        by_cases hstale : 0 < v.ReplayWindow ∧ v.ReplayWindow < |now.us - ts * 10 ^ 6|
        · rw [if_pos hstale]
          refine iff_of_false nofun ?_
          intro h
          obtain ⟨hwin, -⟩ := h
          exact absurd (hwin hstale.1) (not_le.mpr hstale.2)
        · have hwin : 0 < v.ReplayWindow → |now.us - ts * 10 ^ 6| ≤ v.ReplayWindow :=
            fun h => not_lt.mp fun hlt => hstale ⟨h, hlt⟩
          rw [if_neg hstale, and_iff_right hwin]
          split
          · next hany => simpa using hany
          · next hany => simpa using hany

/-! ## Agreement -/

theorem parseInt_some {t : Str} {n : Int} (h : parseInt t = some n) :
    (goduration.splitSign t).2 ≠ [] ∧ (∀ c ∈ (goduration.splitSign t).2, isAsciiDigit c = true) ∧
      n = if (goduration.splitSign t).1 then -(digitsValue (goduration.splitSign t).2 : Int)
        else digitsValue (goduration.splitSign t).2 := by
  unfold parseInt at h
  obtain ⟨neg, digits, hs⟩ : ∃ neg digits, goduration.splitSign t = (neg, digits) := ⟨_, _, rfl⟩
  simp only [hs] at h ⊢
  split at h
  · cases h
  · next hd =>
    rw [not_or, Bool.not_eq_false, List.all_eq_true] at hd
    generalize (if neg = true then -(digitsValue digits : Int) else digitsValue digits) = m at h ⊢
    split at h
    · exact ⟨hd.1, hd.2, (Option.some.inj h).symm⟩
    · cases h

theorem isAscii_of_parseInt {t : Str} {n : Int} (h : parseInt t = some n) : isAscii t = true := by
  obtain ⟨-, hd, -⟩ := parseInt_some h
  obtain ⟨g, ht, -⟩ := goduration.exists_sign t
  rw [isAscii, List.all_eq_true, ht]
  intro c hc
  rcases List.mem_append.mp hc with hc | hc
  · have hsign : ∀ g : goduration.Sign, ∀ c ∈ g.text, decide (c < 128) = true := by
      intro g
      cases g <;> decide
    exact hsign g c hc
  · have := hd c hc
    simp only [isAsciiDigit, Bool.and_eq_true, decide_eq_true_eq] at this ⊢
    omega

/-- A timestamp that both languages read has one value. -/
theorem parseInt_eq_pyInt {t : Str} {n m : Int} (hgo : parseInt t = some n)
    (hpy : pyInt t = some m) : n = m := by
  obtain ⟨hne, hd, hn⟩ := parseInt_some hgo
  have hdec : ∀ c ∈ (goduration.splitSign t).2, isDecimal c = true :=
    fun c hc => isDecimal_of_isAsciiDigit (hd c hc)
  -- the two read the sign alike, and the digits after it
  revert hn hdec hne
  unfold goduration.splitSign
  split
  · intro hne hn hdec
    rw [(pyInt_signed hne hdec).1] at hpy
    split at hpy
    · rw [hn, if_pos rfl]
      exact Option.some.inj hpy
    · cases hpy
  · intro hne hn hdec
    rw [(pyInt_signed hne hdec).2] at hpy
    split at hpy
    · rw [hn]
      exact Option.some.inj hpy
    · cases hpy
  · intro hne hn hdec
    rw [pyInt_decimals hne hdec] at hpy
    split at hpy
    · rw [hn]
      exact Option.some.inj hpy
    · cases hpy

theorem value_eq {header : Str} {r r' : Reading} (hr : pyReading header = some r)
    (hr' : goReading header = some r') (h : r.timestamp = r'.timestamp) : r.value = r'.value := by
  obtain ⟨t, -, -, -, -, hint, hb, -⟩ := pyReading_some.mp hr
  obtain ⟨t', -, -, -, -, hint', hb', -⟩ := goReading_some.mp hr'
  have hascii' := isAscii_of_parseInt hint'
  unfold encodeAscii at hb
  split at hb
  · next hascii =>
    have hmap : t.map UInt8.ofNat = t'.map UInt8.ofNat := by
      rw [Option.some.inj hb, h, hb']
    have ht : t = t' := by
      rw [← decodeLatin1_map_ofNat (isLatin1_of_isAscii hascii), hmap,
        decodeLatin1_map_ofNat (isLatin1_of_isAscii hascii')]
    subst ht
    exact (parseInt_eq_pyInt hint' hint).symm
  · cases hb

theorem Reading.Accepts.same {r r' : Reading} {hmac : Bytes → Bytes → Bytes} {secret body : Bytes}
    {window now : Int} (h : r.Accepts hmac secret body window now)
    (htime : r.timestamp = r'.timestamp) (hvalue : r.value = r'.value)
    (hc : ∀ c ∈ r.candidates, c ∈ r'.candidates) : r'.Accepts hmac secret body window now := by
  obtain ⟨hwin, hmem⟩ := h
  rw [hvalue] at hwin
  rw [htime] at hmem
  exact ⟨hwin, hc _ hmem⟩

/-- Where one side accepts whatever the other does, whatever the MAC, it has the other's
    timestamp and signatures. -/
theorem reading_of_accepts {R R' : Option Reading}
    (h : ∀ (hmac : Bytes → Bytes → Bytes),
      (∃ r, R = some r ∧ r.Accepts hmac [0] [] 0 0) → ∃ r, R' = some r ∧ r.Accepts hmac [0] [] 0 0)
    {r : Reading} (hr : R = some r) (hne : r.candidates ≠ []) :
    ∃ r', R' = some r' ∧ r.timestamp = r'.timestamp ∧ ∀ c ∈ r.candidates, c ∈ r'.candidates := by
  obtain ⟨c₀, hc₀⟩ := List.exists_mem_of_ne_nil _ hne
  obtain ⟨r', hr', -⟩ := h (fun _ _ => c₀) ⟨r, hr, by simp, hc₀⟩
  have hall : ∀ c ∈ r.candidates, r.timestamp = r'.timestamp ∧ c ∈ r'.candidates := by
    intro c hc
    -- a MAC with this value for this timestamp, and a useless one for any other
    obtain ⟨d, hd⟩ := Infinite.exists_notMem_finset r'.candidates.toFinset
    rw [List.mem_toFinset] at hd
    obtain ⟨r'', hr'', -, hmem⟩ := h
      (fun _ m => if m = r.timestamp ++ bytesLit "." ++ [] then c else d)
      ⟨r, hr, by simp, by simpa using hc⟩
    obtain rfl := Option.some.inj (hr'.symm.trans hr'')
    simp only at hmem
    split at hmem
    · next heq => exact ⟨(by simpa using heq.symm), hmem⟩
    · exact absurd hmem hd
  exact ⟨r', hr', (hall c₀ hc₀).1, fun c hc => (hall c hc).2⟩

/-- The two verifiers agree on a header, for every MAC, secret, body, window and time,
    exactly when the header is the same to both. -/
theorem verify_agree_iff (headers : Headers) :
    (∀ (hmac : Bytes → Bytes → Bytes) (secret body : Bytes) (window : goduration.Timedelta)
        (now : Datetime), secret ≠ [] →
      (stripe.verify hmac id ⟨secret, window⟩ body headers now = .ok () ↔
        Verify hmac ⟨secret, window.us⟩ body headers now = .ok ())) ↔
    Agrees ((headers.get stripe.HEADER).getD []) := by
  simp only [py_accepts_iff, go_accepts_iff]
  refine ⟨?_, ?_⟩
  · -- one secret, an empty body and no window are enough to tell two readings apart
    intro h
    have h0 : ∀ hmac, _ ↔ _ := fun hmac => h hmac [0] [] .zero .epoch (by simp)
    have hpy := fun r => reading_of_accepts (r := r) fun hmac => (h0 hmac).mp
    have hgo := fun r => reading_of_accepts (r := r) fun hmac => (h0 hmac).mpr
    have hnil : ∀ {l l' : List Bytes}, l ≠ [] → (∀ c ∈ l, c ∈ l') → l' ≠ [] := by
      intro l l' hl hsub hl'
      obtain ⟨c, hc⟩ := List.exists_mem_of_ne_nil _ hl
      exact List.ne_nil_of_mem (hsub c hc) hl'
    refine ⟨?_, ?_⟩
    · intro r hr hne
      obtain ⟨r', hr', htime, hsub⟩ := hpy r hr hne
      obtain ⟨r'', hr'', -, hsub'⟩ := hgo r' hr' (hnil hne hsub)
      obtain rfl := Option.some.inj (hr.symm.trans hr'')
      exact ⟨r', hr', htime, fun c => ⟨hsub c, hsub' c⟩⟩
    · intro r' hr' hne
      obtain ⟨r, hr, htime, hsub⟩ := hgo r' hr' hne
      obtain ⟨r'', hr'', -, hsub'⟩ := hpy r hr (hnil hne hsub)
      obtain rfl := Option.some.inj (hr'.symm.trans hr'')
      exact ⟨r, hr, htime.symm, fun c => ⟨hsub' c, hsub c⟩⟩
  · intro hagrees hmac secret body window now _
    obtain ⟨hpy, hgo⟩ := hagrees
    refine ⟨?_, ?_⟩
    · -- what accepts has a signature, so the other side has the same reading
      intro haccepts
      obtain ⟨r, hr, hacc⟩ := haccepts
      obtain ⟨r', hr', htime, hc⟩ := hpy r hr (List.ne_nil_of_mem hacc.2)
      exact ⟨r', hr', hacc.same htime (value_eq hr hr' htime) fun c => (hc c).mp⟩
    · intro haccepts
      obtain ⟨r', hr', hacc⟩ := haccepts
      obtain ⟨r, hr, htime, hc⟩ := hgo r' hr' (List.ne_nil_of_mem hacc.2)
      exact ⟨r, hr, hacc.same htime.symm (value_eq hr hr' htime).symm fun c => (hc c).mpr⟩

/-! ## Two headers -/

/-- HMAC-SHA256 of `1_0.` under the key `k`. -/
def underscoreMac : Bytes :=
  [207, 217, 197, 207, 86, 62, 93, 28, 111, 194, 59, 126, 98, 229, 195, 209, 208, 82, 25, 213,
   252, 21, 178, 164, 218, 99, 26, 253, 165, 42, 137, 157]

/-- HMAC-SHA256 of `1.` under the key `k`. -/
def spaceMac : Bytes :=
  [55, 195, 159, 249, 12, 158, 175, 152, 183, 111, 28, 241, 163, 131, 153, 250, 64, 142, 147,
   15, 52, 224, 74, 81, 121, 208, 220, 100, 137, 254, 156, 120]

/-- A timestamp with an underscore, under a good signature, is accepted by Python only;
    one behind an encoded no-break space by Go only. -/
theorem verify_disagree :
    (stripe.verify (fun _ _ => underscoreMac) id ⟨bytesLit "k", .zero⟩ []
        [(bytesLit "stripe-signature",
          bytesLit "t=1_0,v1=" ++ (hex underscoreMac).map UInt8.ofNat)]
        .epoch = .ok () ∧
      Verify (fun _ _ => underscoreMac) ⟨bytesLit "k", 0⟩ []
        [(bytesLit "stripe-signature",
          bytesLit "t=1_0,v1=" ++ (hex underscoreMac).map UInt8.ofNat)]
        .epoch = .error (lit "invalid timestamp")) ∧
    stripe.verify (fun _ _ => spaceMac) id ⟨bytesLit "k", .zero⟩ []
        [(bytesLit "stripe-signature",
          [0xC2, 0xA0] ++ bytesLit "t=1,v1=" ++ (hex spaceMac).map UInt8.ofNat)]
        .epoch =
        .error (verificationError "malformed Stripe-Signature header") ∧
      Verify (fun _ _ => spaceMac) ⟨bytesLit "k", 0⟩ []
        [(bytesLit "stripe-signature",
          [0xC2, 0xA0] ++ bytesLit "t=1,v1=" ++ (hex spaceMac).map UInt8.ofNat)]
        .epoch = .ok () := by
  refine ⟨⟨?_, ?_⟩, ?_, ?_⟩ <;> rfl

end oracle
end HookGuard
