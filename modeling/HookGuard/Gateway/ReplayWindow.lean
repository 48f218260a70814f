import HookGuard.Gateway.Registry

/- What becomes of a configured replay window (`providers/stripe.py`,
   `hookguard_core/goduration.py`).

   The window is parsed in nanoseconds and kept in microseconds, rounded toward
   zero, and a window of zero is no window. A duration of a microsecond or more
   therefore loses nothing a clock in microseconds could see, and one of less
   turns the replay check off. The other loss is at the far end: a timestamp past
   the largest float is neither accepted nor refused as stale
   (`replay_window_kept_iff`, in exact arithmetic). -/
namespace HookGuard
open Py

namespace stripe

theorem denotes_ne_nil {s : Str} {w : Int} (h : goduration.Denotes s w) : s ≠ [] := by
  intro hnil
  rw [hnil] at h
  rcases goduration.denotes_iff.mp h with ⟨h0, -⟩ | ⟨-, hne, -⟩
  · cases h0
  · rw [show (goduration.splitSign []).2 = [] from rfl, goduration.components, if_pos rfl] at hne
    exact hne rfl

/-- The window a factory that accepts a positive duration of `w` nanoseconds keeps. -/
theorem build_window {route : Route} {secret : Str} {v : StripeVerifier} {w : Int}
    (denotes : goduration.Denotes route.replayWindow w) (pos : 0 < w)
    (built : build route secret = .ok v) : v.replayWindow.us = w / 1000 := by
  unfold build at built
  split at built
  · cases built
  · -- the text is not empty, so it is parsed: to the same number, in microseconds
    rw [if_pos (denotes_ne_nil denotes)] at built
    cases hp : goduration.parseGoDuration route.replayWindow with
    | error e => rw [hp] at built; cases e <;> cases built
    | ok window =>
      rw [hp] at built
      have hwindow : v.replayWindow = window := by
        cases he : encodeUtf8 secret with
        | none => simp [he] at built
        | some s =>
          simp only [he, Except.ok.injEq] at built
          rw [← built]
      unfold goduration.parseGoDuration at hp
      cases hns : goduration.parseGoDurationNs route.replayWindow with
      | error e => rw [hns] at hp; cases hp
      | ok n =>
        obtain rfl := goduration.parseGoDurationNs_denotes denotes hns
        simp only [hns, if_neg (not_lt.mpr pos.le), goduration.Timedelta.ofMicroseconds] at hp
        split at hp
        · simp only [Except.ok.injEq] at hp
          rw [hwindow, ← hp]
          simp only
          omega
        · cases hp

/-- A request signed at `ts` seconds, with the window denoting `w` nanoseconds: the
    verifier accepts up to `w` and refuses as stale past it, exactly when the window
    is at least a microsecond and the timestamp fits a float, or the window is less
    and the timestamp is now. -/
theorem replay_window_kept_iff {hmac : Bytes → Bytes → Bytes} {route : Route} {secret : Str}
    {v : StripeVerifier} {w : Int} {body : Bytes} {headers : Headers} {now : Datetime}
    {t : Str} {sigs : List Str} {ts : Int} {b : Bytes}
    (denotes : goduration.Denotes route.replayWindow w) (pos : 0 < w)
    (built : build route secret = .ok v)
    (reads : Reads headers t sigs ts) (ascii : encodeAscii t = some b)
    (signed : ∃ c ∈ sigs, decodeHex c = .ok (hmac v.secret (signedPayload b body))) :
    ((|now.us * 1000 - ts * 10 ^ 9| ≤ w → verify hmac id v body headers now = .ok ()) ∧
      (w < |now.us * 1000 - ts * 10 ^ 9| → verify hmac id v body headers now =
        .error (verificationError "timestamp outside replay window"))) ↔
    (1000 ≤ w ∧ fitsDouble ts = true) ∨ (w < 1000 ∧ now.us = ts * 10 ^ 6) := by
  have hus := build_window denotes pos built
  have hscale : |now.us * 1000 - ts * 10 ^ 9| = |now.us - ts * 10 ^ 6| * 1000 := by
    rw [show now.us * 1000 - ts * 10 ^ 9 = (now.us - ts * 10 ^ 6) * 1000 by ring, abs_mul]
    rfl
  rw [verify_readable reads, freshness_exact, ascii, hscale, hus]
  simp only [anyMatch_ok_iff.mpr signed]
  by_cases hw : 1000 ≤ w
  · have hpos : 0 < w / 1000 := by omega
    simp only [hpos, if_true, hw, true_and, show ¬ w < 1000 by omega, false_and, or_false]
    cases hf : fitsDouble ts with
    | false =>
      -- the comparison overflows, on whichever side of the window the request is
      refine iff_of_false ?_ (by decide)
      intro hkept
      obtain ⟨hin, hout⟩ := hkept
      rcases le_or_gt (|now.us - ts * 10 ^ 6| * 1000) w with h | h
      · cases hin h
      · cases hout h
    | true =>
      -- whole microseconds: past `w` nanoseconds is past `w / 1000` of them
      refine iff_of_true ⟨fun h => ?_, fun h => ?_⟩ rfl
      · have hle : ¬ w / 1000 < |now.us - ts * 10 ^ 6| := by omega
        simp only [Bool.true_eq_false, if_false, hle]
      · have hlt : w / 1000 < |now.us - ts * 10 ^ 6| := by omega
        simp only [Bool.true_eq_false, if_false, hlt, if_true]
  · -- the window is kept as zero, and nothing is compared
    have hzero : ¬ 0 < w / 1000 := by omega
    simp only [hzero, if_false, hw, false_and, false_or, show w < 1000 by omega, true_and]
    refine ⟨?_, ?_⟩
    · intro hkept
      obtain ⟨-, hout⟩ := hkept
      rcases le_or_gt (|now.us - ts * 10 ^ 6| * 1000) w with h | h
      · have hd := abs_nonneg (now.us - ts * 10 ^ 6)
        have habs : |now.us - ts * 10 ^ 6| = 0 := by omega
        rw [abs_eq_zero] at habs
        omega
      · cases hout h
    · intro hnow
      have hd : |now.us - ts * 10 ^ 6| = 0 := by rw [hnow, sub_self, abs_zero]
      rw [hd]
      exact ⟨fun _ => trivial, fun h => by omega⟩

/-! ## Two windows -/

/-- HMAC-SHA256 of `0.` under the key `k`. -/
def epochMac : Bytes :=
  [107, 74, 75, 139, 60, 64, 241, 232, 245, 58, 61, 54, 104, 46, 95, 153, 247, 173, 42, 193,
   223, 28, 147, 223, 227, 54, 243, 41, 22, 118, 65, 231]

/-- The headers of a request signed so at the epoch, with an empty body. -/
def epochHeaders : Headers :=
  [(bytesLit "stripe-signature", bytesLit "t=0,v1=" ++ (hex epochMac).map UInt8.ofNat)]

theorem epochHeaders_reads : Reads epochHeaders (lit "0") [hex epochMac] 0 :=
  ⟨by decide +kernel, by decide, by decide, by decide⟩

theorem denotes_component {c : goduration.Component} {n : Int} (h : c.Over isAsciiDigit)
    (hn : c.nanos = n) : goduration.Denotes c.text n := by
  have hsum := goduration.Denotes.sum .none [c] (by simp) (by simpa using h)
  simpa [goduration.Sign.text, goduration.Sign.apply, goduration.textOf, hn] using hsum

theorem denotes_5m : goduration.Denotes (lit "5m") 300000000000 :=
  denotes_component (c := ⟨⟨lit "5", none⟩, lit "m"⟩)
    ⟨by decide, by decide, by decide, by decide⟩ (by decide)

theorem denotes_500ns : goduration.Denotes (lit "500ns") 500 :=
  denotes_component (c := ⟨⟨lit "500", none⟩, lit "ns"⟩)
    ⟨by decide, by decide, by decide, by decide⟩ (by decide)

def verifier5m : StripeVerifier := ⟨bytesLit "k", ⟨300000000, by decide, by decide⟩⟩

theorem replay_window_kept_5m :
    ((|Datetime.epoch.us * 1000 - 0 * 10 ^ 9| ≤ 300000000000 →
        verify (fun _ _ => epochMac) id verifier5m [] epochHeaders .epoch = .ok ()) ∧
      (300000000000 < |Datetime.epoch.us * 1000 - 0 * 10 ^ 9| →
        verify (fun _ _ => epochMac) id verifier5m [] epochHeaders .epoch =
          .error (verificationError "timestamp outside replay window"))) ↔
    ((1000 : Int) ≤ 300000000000 ∧ fitsDouble 0 = true) ∨
      ((300000000000 : Int) < 1000 ∧ Datetime.epoch.us = 0 * 10 ^ 6) :=
  replay_window_kept_iff denotes_5m (by decide) build_5m epochHeaders_reads (b := bytesLit "0")
    (by decide) ⟨hex epochMac, List.mem_singleton_self _, decodeHex_hex epochMac⟩

/-- Under a window of 500ns a request signed at the epoch is accepted an hour later. -/
theorem replay_window_500ns_lost :
    goduration.Denotes (lit "500ns") 500 ∧
    ∃ v, build ⟨lit "/s", lit "stripe", lit "u", lit "500ns", [], [], by decide⟩ (lit "k") =
        .ok v ∧
      (500 : Int) < |3600000000 * 1000 - 0 * 10 ^ 9| ∧
      verify (fun _ _ => epochMac) id v [] epochHeaders ⟨3600000000, by decide, by decide⟩ =
        .ok () := by
  have hns : goduration.parseGoDurationNs (lit "500ns") = .ok 500 :=
    goduration.parseGoDurationNs_single .none (c := ⟨⟨lit "500", none⟩, lit "ns"⟩)
      ⟨by decide, by decide, by decide, by decide⟩ (by decide) (by decide)
  have hwindow : goduration.parseGoDuration (lit "500ns") = .ok .zero := by
    simp only [goduration.parseGoDuration, hns]
    rfl
  refine ⟨denotes_500ns, ⟨bytesLit "k", .zero⟩, ?_, by decide, ?_⟩
  · simp only [build, hwindow]
    rfl
  · rw [verify_readable epochHeaders_reads, freshness_exact]
    exact anyMatch_ok_iff.mpr ⟨hex epochMac, List.mem_singleton_self _, decodeHex_hex epochMac⟩

end stripe
end HookGuard
