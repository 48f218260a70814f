import HookGuard.Lib.Url
import HookGuard.Lib.Utf8

/- `urllib.parse.quote`: the UTF-8 octets of a text, each as itself where it is always safe
   or named as safe, and otherwise as a percent sign and two hex digits in upper case. What
   is quoted holds nothing but safe characters and percent signs (`quote_safe`), and
   begins as the text does or with a percent sign (`quote_cons`). -/
namespace Py

/-- `_ALWAYS_SAFE`. -/
def alwaysSafe (c : Nat) : Bool :=
  isAsciiAlpha c || isAsciiDigit c || c == 95 || c == 46 || c == 45 || c == 126

/-- `_Quoter.__missing__`: what an octet becomes. -/
def quoteByte (safe : Str) (b : UInt8) : Str :=
  if alwaysSafe b.toNat || (b.toNat < 128 && safe.contains b.toNat) then [b.toNat]
  else
    let digit (n : Nat) : Nat := if n < 10 then 48 + n else 55 + n
    [37, digit (b.toNat / 16), digit (b.toNat % 16)]

/-- `quote(s, safe)`; `none` is the `UnicodeEncodeError`. -/
def quote (s safe : Str) : Option Str := (encodeUtf8 s).map fun b => b.flatMap (quoteByte safe)

example : quote (lit "/a b\\é") (lit "/") = some (lit "/a%20b%5C%C3%A9") := by decide

variable {safe : Str}

theorem alwaysSafe_digit : ∀ n < 16, alwaysSafe (if n < 10 then 48 + n else 55 + n) = true := by
  decide

theorem quoteByte_safe {b : UInt8} {c : Nat} (h : c ∈ quoteByte safe b) :
    alwaysSafe c = true ∨ c ∈ safe ∨ c = 37 := by
  have hb := b.toNat_lt
  unfold quoteByte at h
  split at h
  · next hsafe =>
    rw [List.mem_singleton.mp h]
    simp only [Bool.or_eq_true, Bool.and_eq_true, List.contains_iff_mem] at hsafe
    exact hsafe.imp_right fun hnamed => .inl hnamed.2
  · simp only [List.mem_cons, List.not_mem_nil, or_false] at h
    obtain rfl | rfl | rfl := h
    · exact .inr (.inr rfl)
    · exact .inl (alwaysSafe_digit _ (by omega))
    · exact .inl (alwaysSafe_digit _ (by omega))

theorem quote_safe {s q : Str} (h : quote s safe = some q) :
    ∀ c ∈ q, alwaysSafe c = true ∨ c ∈ safe ∨ c = 37 := by
  obtain ⟨b, -, rfl⟩ := Option.map_eq_some_iff.mp h
  intro c hc
  obtain ⟨x, -, hx⟩ := List.mem_flatMap.mp hc
  exact quoteByte_safe hx

theorem utf8Char_head {c : Nat} {b : Bytes} (h : utf8Char c = some b) :
    ∃ x r, b = x :: r ∧ (x.toNat = c ∨ 128 ≤ x.toNat) := by
  have hread := decodeHead_utf8Char h []
  cases b with
  | nil => exact absurd rfl (utf8Char_ne_nil h)
  | cons x r =>
    refine ⟨x, r, rfl, ?_⟩
    by_cases hx : x.toNat < 128
    · simp only [List.append_nil, decodeHead, hx, if_true, Option.some.injEq,
        Prod.mk.injEq] at hread
      exact .inl hread.1
    · exact .inr (by omega)

theorem quoteByte_head (x : UInt8) : ∃ d r, quoteByte safe x = d :: r ∧
    (d = 37 ∨ (d = x.toNat ∧ d < 128)) := by
  unfold quoteByte
  split
  · next hsafe =>
    refine ⟨x.toNat, [], rfl, .inr ⟨rfl, ?_⟩⟩
    simp only [alwaysSafe, isAsciiAlpha, isAsciiDigit, Bool.or_eq_true, Bool.and_eq_true,
      decide_eq_true_eq, beq_iff_eq] at hsafe
    omega
  · exact ⟨37, _, rfl, .inl rfl⟩

theorem quote_cons {c : Nat} {s q : Str} (h : quote (c :: s) safe = some q) :
    ∃ d r, q = d :: r ∧ (d = c ∨ d = 37) := by
  obtain ⟨b, hb, rfl⟩ := Option.map_eq_some_iff.mp h
  obtain ⟨x, y, hx, hy, rfl⟩ := encodeUtf8_cons.mp hb
  obtain ⟨octet, rest, rfl, hoctet⟩ := utf8Char_head hx
  obtain ⟨d, r, hd, hfirst⟩ := @quoteByte_head safe octet
  refine ⟨d, r ++ (rest ++ y).flatMap (quoteByte safe), ?_, ?_⟩
  · rw [List.cons_append, List.flatMap_cons, hd, List.cons_append]
  · omega

theorem quote_safe_cons {c : Nat} (hc : c < 128) (hsafe : c ∈ safe) (s : Str) :
    quote (c :: s) safe = (quote s safe).map (c :: ·) := by
  have hoctet : (UInt8.ofNat c).toNat = c := by
    rw [UInt8.toNat_ofNat']
    exact Nat.mod_eq_of_lt (by omega)
  have hbyte : quoteByte safe (UInt8.ofNat c) = [c] := by
    simp [quoteByte, hoctet, hc, hsafe]
  rw [quote, quote, encodeUtf8, utf8Char, if_pos hc]
  cases encodeUtf8 s with
  | none => rfl
  | some b => simp [hbyte]

end Py
