import HookGuard.Gateway.ReplayWindow

/- Which headers Stripe's verifier accepts (`providers/stripe.py`), by their parts.

   `keyed` reads one part by itself. The loop of `_parse_header` keeps the last value of
   `t` and every value of `v1` (`parseHeader_eq`), so that what it accepts is said of the
   parts alone (`Signed`), and a rotation of the secret may add, drop in and reorder
   candidates. -/
namespace HookGuard
open Py

namespace stripe

/-- The value of a part, under the key. -/
def keyed (key part : Str) : Option Str :=
  match partition 61 (strip part) with
  | (k, some value) => if k = key then some value else none
  | (_, none) => none

/-- The parts of the header. -/
def partsOf (headers : Headers) : List Str := ((headers.get HEADER).getD []).splitOn 44

/-- The value of the last part keyed `t`. -/
def timestampOf (parts : List Str) : Str := (parts.filterMap (keyed (lit "t"))).getLast?.getD []

section Parts

theorem readPart_eq (acc : Str × List Str) (part : Str) :
    readPart acc part = ((keyed (lit "t") part).getD acc.1,
      acc.2 ++ (keyed (lit "v1") part).toList) := by
  unfold readPart keyed
  cases partition 61 (strip part) with
  | mk key value =>
    cases value with
    | none => simp
    | some value =>
      -- no key is both
      have hne : lit "v1" ≠ lit "t" := by decide
      by_cases ht : key = lit "t"
      · simp [ht, hne.symm]
      · by_cases hv : key = lit "v1"
        · simp [hv, hne]
        · simp [ht, hv]

theorem foldl_readPart (parts : List Str) :
    parts.foldl readPart ([], []) =
      (timestampOf parts, parts.filterMap (keyed (lit "v1"))) := by
  induction parts using List.reverseRecOn with
  | nil => rfl
  | append_singleton parts part ih =>
    rw [List.foldl_append, List.foldl_cons, List.foldl_nil, ih, readPart_eq]
    unfold timestampOf
    rw [List.filterMap_append, List.filterMap_append]
    cases ht : keyed (lit "t") part <;> cases hv : keyed (lit "v1") part <;> simp [ht, hv]

/-- The loop keeps the last timestamp, and every candidate. -/
theorem parseHeader_eq (headers : Headers) :
    parseHeader ((headers.get HEADER).getD []) =
      (timestampOf (partsOf headers), (partsOf headers).filterMap (keyed (lit "v1"))) :=
  foldl_readPart _

end Parts

/-- The later parts are the earlier with further ones between them, none keyed `t`. -/
inductive Inserted : List Str → List Str → Prop
  | nil : Inserted [] []
  | keep (part : Str) {ps qs : List Str} (rest : Inserted ps qs) :
      Inserted (part :: ps) (part :: qs)
  | insert {part : Str} (key : keyed (lit "t") part = none) {ps qs : List Str}
      (rest : Inserted ps qs) : Inserted ps (part :: qs)

/-- The same parts, those keyed `t` in the same order. -/
def Reordered (ps qs : List Str) : Prop :=
  ps.Perm qs ∧
    ps.filter (fun part => (keyed (lit "t") part).isSome) =
      qs.filter fun part => (keyed (lit "t") part).isSome

section Signed
variable (hmac : Bytes → Bytes → Bytes) (round : ℚ → ℚ) (v : StripeVerifier) (body : Bytes)
  (now : Datetime)

/-- The last timestamp is an integer within the window, where there is one, and some
    candidate is the MAC of it and the body. -/
def Signed (parts : List Str) : Prop :=
  timestampOf parts ≠ [] ∧
  (∃ ts, pyInt (timestampOf parts) = some ts ∧ (0 < v.replayWindow.us →
    |round (round (now.us / 10 ^ 6) - round ts)| ≤ round (v.replayWindow.us / 10 ^ 6))) ∧
  ∃ part ∈ parts, ∃ candidate b, keyed (lit "v1") part = some candidate ∧
    encodeAscii (timestampOf parts) = some b ∧
    decodeHex candidate = .ok (hmac v.secret (signedPayload b body))

end Signed

section Preserved
variable {hmac : Bytes → Bytes → Bytes} {round : ℚ → ℚ} {v : StripeVerifier} {body : Bytes}
  {now : Datetime} {headers headers' : Headers} {ps qs : List Str}

/-- An accepted request is signed; one that is signed is accepted, but for what the replay
    check cannot compare. -/
theorem verify_ok_iff_signed :
    verify hmac round v body headers now = .ok () ↔
      Signed hmac round v body now (partsOf headers) ∧ ∀ ts,
        pyInt (timestampOf (partsOf headers)) = some ts → 0 < v.replayWindow.us →
          fitsDouble ts = true := by
  rw [verify_ok_iff]
  refine ⟨?_, ?_⟩
  · rintro ⟨t, sigs, ts, b, ⟨hparse, ht, -, hint⟩, hfresh, hascii, c, hc, hdecode⟩
    obtain ⟨rfl, rfl⟩ := Prod.mk.inj ((parseHeader_eq headers).symm.trans hparse)
    obtain ⟨part, hpart, hkey⟩ := List.mem_filterMap.mp hc
    rw [freshness_ok_iff] at hfresh
    refine ⟨⟨ht, ⟨ts, hint, fun hw => (hfresh hw).2⟩, part, hpart, c, b, hkey, hascii, hdecode⟩,
      ?_⟩
    intro ts' hint' hw
    rw [← Option.some.inj (hint.symm.trans hint')]
    exact (hfresh hw).1
  · rintro ⟨⟨ht, ⟨ts, hint, hwithin⟩, part, hpart, c, b, hkey, hascii, hdecode⟩, hfits⟩
    have hc := List.mem_filterMap.mpr ⟨part, hpart, hkey⟩
    exact ⟨_, _, ts, b, ⟨parseHeader_eq headers, ht, List.ne_nil_of_mem hc, hint⟩,
      freshness_ok_iff.mpr fun hw => ⟨hfits ts hint hw, hwithin hw⟩, hascii, c, hc, hdecode⟩

theorem fits_of_contract (hcontract : VerifierContract (verify hmac round v body headers now))
    (hsigned : Signed hmac round v body now (partsOf headers)) {ts : Int}
    (hint : pyInt (timestampOf (partsOf headers)) = some ts) (hw : 0 < v.replayWindow.us) :
    fitsDouble ts = true := by
  obtain ⟨ht, -, part, hpart, c, b, hkey, -⟩ := hsigned
  have hne := List.ne_nil_of_mem (List.mem_filterMap.mpr ⟨part, hpart, hkey⟩)
  exact (verify_contract_iff.mp hcontract _ _ ts ⟨parseHeader_eq headers, ht, hne, hint⟩).1 hw

theorem verify_ok_of_candidates (hok : verify hmac round v body headers now = .ok ())
    (htimestamp : timestampOf (partsOf headers') = timestampOf (partsOf headers))
    (hparts : ∀ part ∈ partsOf headers, part ∈ partsOf headers') :
    verify hmac round v body headers' now = .ok () := by
  obtain ⟨⟨ht, hint, part, hpart, hcandidate⟩, hfits⟩ := verify_ok_iff_signed.mp hok
  rw [verify_ok_iff_signed, Signed, htimestamp]
  exact ⟨⟨ht, hint, part, hparts part hpart, hcandidate⟩, hfits⟩

theorem Inserted.mem (h : Inserted ps qs) : ∀ part ∈ ps, part ∈ qs := by
  induction h with
  | nil => exact fun _ h => h
  | keep part rest ih =>
    intro p hp
    rcases List.mem_cons.mp hp with rfl | hp
    · exact List.mem_cons_self
    · exact List.mem_cons_of_mem _ (ih p hp)
  | insert key rest ih => exact fun p hp => List.mem_cons_of_mem _ (ih p hp)

theorem Inserted.timestamp (h : Inserted ps qs) : timestampOf qs = timestampOf ps := by
  have hvalues : qs.filterMap (keyed (lit "t")) = ps.filterMap (keyed (lit "t")) := by
    induction h with
    | nil => rfl
    | keep part rest ih => rw [List.filterMap_cons, List.filterMap_cons, ih]
    | insert key rest ih => rw [List.filterMap_cons, key, ih]
  rw [timestampOf, timestampOf, hvalues]

theorem filterMap_keyed (key : Str) (parts : List Str) :
    parts.filterMap (keyed key) =
      (parts.filter fun part => (keyed key part).isSome).filterMap (keyed key) := by
  induction parts with
  | nil => rfl
  | cons part parts ih =>
    cases hkey : keyed key part with
    | none => simpa [hkey] using ih
    | some value => simpa [hkey] using ih

theorem Reordered.timestamp (h : Reordered ps qs) : timestampOf qs = timestampOf ps := by
  unfold timestampOf
  rw [filterMap_keyed, filterMap_keyed _ ps, h.2]

end Preserved

/-- Unless it raises something else, the verifier accepts exactly what is signed; what it
    accepts stays accepted with further parts anywhere, none of them keyed `t`; and
    whatever the order of the parts, with those keyed `t` in theirs, it accepts the same. -/
theorem candidates_decide (hmac : Bytes → Bytes → Bytes) (round : ℚ → ℚ) (v : StripeVerifier)
    (body : Bytes) (now : Datetime) :
    (∀ headers, VerifierContract (verify hmac round v body headers now) →
      (verify hmac round v body headers now = .ok () ↔
        Signed hmac round v body now (partsOf headers))) ∧
    (∀ headers headers', Inserted (partsOf headers) (partsOf headers') →
      verify hmac round v body headers now = .ok () →
        verify hmac round v body headers' now = .ok ()) ∧
    (∀ headers headers', Reordered (partsOf headers) (partsOf headers') →
      (verify hmac round v body headers now = .ok () ↔
        verify hmac round v body headers' now = .ok ())) := by
  refine ⟨?_, ?_, ?_⟩
  · intro headers hcontract
    rw [verify_ok_iff_signed]
    refine ⟨And.left, ?_⟩
    intro hsigned
    exact ⟨hsigned, fun ts hint hw => fits_of_contract hcontract hsigned hint hw⟩
  · intro headers headers' hinserted hok
    exact verify_ok_of_candidates hok hinserted.timestamp hinserted.mem
  · intro headers headers' hreordered
    refine ⟨?_, ?_⟩
    · intro hok
      exact verify_ok_of_candidates hok hreordered.timestamp fun part => hreordered.1.mem_iff.mp
    · intro hok
      exact verify_ok_of_candidates hok hreordered.timestamp.symm
        fun part => hreordered.1.mem_iff.mpr

/-! ## A rotation -/

def signaturePart : Str := lit "v1=" ++ hex epochMac

/-- The header of `epochHeaders` with a candidate of another secret, and a part without a
    value, before its own parts; and then the timestamp last. -/
def addedHeaders : Headers :=
  [(bytesLit "stripe-signature", bytesLit "v1=00,v0,t=0," ++ signaturePart.map UInt8.ofNat)]

def rotatedHeaders : Headers :=
  [(bytesLit "stripe-signature", bytesLit "v1=00,v0," ++ signaturePart.map UInt8.ofNat ++
    bytesLit ",t=0")]

theorem candidates_decide_rotated :
    verify (fun _ _ => epochMac) id ⟨bytesLit "k", .zero⟩ [] rotatedHeaders .epoch = .ok () := by
  have hdecide := candidates_decide (fun _ _ => epochMac) id ⟨bytesLit "k", .zero⟩ [] .epoch
  obtain ⟨-, hinserted, hreordered⟩ := hdecide
  have hepoch : verify (fun _ _ => epochMac) id ⟨bytesLit "k", .zero⟩ [] epochHeaders .epoch =
      .ok () := by
    rw [verify_readable epochHeaders_reads, freshness_exact]
    exact anyMatch_ok_iff.mpr ⟨hex epochMac, List.mem_singleton_self _, decodeHex_hex epochMac⟩
  have hparts : partsOf epochHeaders = [lit "t=0", signaturePart] := by decide +kernel
  have hadded : partsOf addedHeaders = [lit "v1=00", lit "v0", lit "t=0", signaturePart] := by
    decide +kernel
  have hrotated : partsOf rotatedHeaders = [lit "v1=00", lit "v0", signaturePart, lit "t=0"] := by
    decide +kernel
  refine (hreordered addedHeaders rotatedHeaders ?_).mp (hinserted epochHeaders addedHeaders ?_
    hepoch)
  · rw [hadded, hrotated]
    exact ⟨by decide +kernel, by decide +kernel⟩
  · rw [hparts, hadded]
    exact .insert (by decide) (.insert (by decide) (.keep _ (.keep _ .nil)))

end stripe
end HookGuard
