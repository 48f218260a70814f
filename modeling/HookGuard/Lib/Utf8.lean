import HookGuard.Lib.Text

/- UTF-8 encoding of code points. `encodeUtf8` is `str.encode("utf-8")`: surrogates
   and anything past U+10FFFF are the `UnicodeEncodeError` (`none`). The code is
   prefix free: `decodeHead` reads the first code point back off any octet string
   that starts with its encoding, so an encoding that begins with another text's
   encoding is the encoding of an extension of that text (`encodeUtf8_split`),
   and encoding is injective. -/
namespace Py

/-- The octets of one code point. -/
def utf8Char (c : Nat) : Option Bytes :=
  if c < 0x80 then some [UInt8.ofNat c]
  else if c < 0x800 then some [UInt8.ofNat (0xC0 + c / 64), UInt8.ofNat (0x80 + c % 64)]
  else if 0xD800 ≤ c ∧ c < 0xE000 then none
  else if c < 0x10000 then
    some [UInt8.ofNat (0xE0 + c / 4096), UInt8.ofNat (0x80 + c / 64 % 64),
      UInt8.ofNat (0x80 + c % 64)]
  else if c < 0x110000 then
    some [UInt8.ofNat (0xF0 + c / 262144), UInt8.ofNat (0x80 + c / 4096 % 64),
      UInt8.ofNat (0x80 + c / 64 % 64), UInt8.ofNat (0x80 + c % 64)]
  else none

/-- `s.encode("utf-8")`. -/
def encodeUtf8 : Str → Option Bytes
  | [] => some []
  | c :: s => (utf8Char c).bind (fun b => (encodeUtf8 s).map (b ++ ·))

/-- The first code point of an octet string, by the length its lead octet names,
    and the octets after it. -/
def decodeHead : Bytes → Option (Nat × Bytes)
  | [] => none
  | a :: r =>
    if a.toNat < 0x80 then some (a.toNat, r)
    else if a.toNat < 0xE0 then match r with
      | b :: r => some ((a.toNat - 0xC0) * 64 + (b.toNat - 0x80), r)
      | _ => none
    else if a.toNat < 0xF0 then match r with
      | b :: c :: r =>
        some ((a.toNat - 0xE0) * 4096 + (b.toNat - 0x80) * 64 + (c.toNat - 0x80), r)
      | _ => none
    else match r with
      | b :: c :: d :: r =>
        some ((a.toNat - 0xF0) * 262144 + (b.toNat - 0x80) * 4096 + (c.toNat - 0x80) * 64 +
          (d.toNat - 0x80), r)
      | _ => none

theorem decodeHead_utf8Char {c : Nat} {b : Bytes} (h : utf8Char c = some b) (r : Bytes) :
    decodeHead (b ++ r) = some (c, r) := by
  have octet : ∀ n, n < 256 → (UInt8.ofNat n).toNat = n := fun n hn => by
    simp [Nat.mod_eq_of_lt hn]
  unfold utf8Char at h
  split at h
  · -- one octet
    simp only [Option.some.injEq] at h; subst h
    simp only [List.cons_append, List.nil_append, decodeHead]
    rw [octet c (by omega), if_pos (by omega)]
  · split at h
    · -- two octets
      simp only [Option.some.injEq] at h; subst h
      simp only [List.cons_append, List.nil_append, decodeHead]
      rw [octet (0xC0 + c / 64) (by omega), octet (0x80 + c % 64) (by omega),
        if_neg (by omega), if_pos (by omega)]
      simp only [Option.some.injEq, Prod.mk.injEq, and_true]; omega
    · split at h
      · simp at h
      · split at h
        · -- three octets
          simp only [Option.some.injEq] at h; subst h
          simp only [List.cons_append, List.nil_append, decodeHead]
          rw [octet (0xE0 + c / 4096) (by omega), octet (0x80 + c / 64 % 64) (by omega),
            octet (0x80 + c % 64) (by omega), if_neg (by omega), if_neg (by omega),
            if_pos (by omega)]
          simp only [Option.some.injEq, Prod.mk.injEq, and_true]; omega
        · split at h
          · -- four octets
            simp only [Option.some.injEq] at h; subst h
            simp only [List.cons_append, List.nil_append, decodeHead]
            rw [octet (0xF0 + c / 262144) (by omega), octet (0x80 + c / 4096 % 64) (by omega),
              octet (0x80 + c / 64 % 64) (by omega), octet (0x80 + c % 64) (by omega),
              if_neg (by omega), if_neg (by omega), if_neg (by omega)]
            simp only [Option.some.injEq, Prod.mk.injEq, and_true]; omega
          · simp at h

theorem utf8Char_ne_nil {c : Nat} {b : Bytes} (h : utf8Char c = some b) : b ≠ [] := by
  intro hb
  have := decodeHead_utf8Char h []
  simp [hb, decodeHead] at this

theorem encodeUtf8_cons {c : Nat} {s : Str} {b : Bytes} :
    encodeUtf8 (c :: s) = some b ↔
      ∃ x y, utf8Char c = some x ∧ encodeUtf8 s = some y ∧ b = x ++ y := by
  simp only [encodeUtf8, Option.bind_eq_some_iff, Option.map_eq_some_iff]
  refine ⟨?_, ?_⟩
  · intro h
    obtain ⟨x, hx, y, hy, rfl⟩ := h
    exact ⟨x, y, hx, hy, rfl⟩
  · intro h
    obtain ⟨x, y, hx, hy, rfl⟩ := h
    exact ⟨x, hx, y, hy, rfl⟩

theorem encodeUtf8_append (s t : Str) : encodeUtf8 (s ++ t) =
    (encodeUtf8 s).bind (fun a => (encodeUtf8 t).map (a ++ ·)) := by
  induction s with
  | nil => cases h : encodeUtf8 t <;> simp [encodeUtf8, h]
  | cons c s ih =>
    rw [List.cons_append, encodeUtf8, ih]
    cases hc : utf8Char c <;> cases hs : encodeUtf8 s <;> cases ht : encodeUtf8 t <;>
      simp [encodeUtf8, hc, hs]

/-- An encoding that starts with the encoding of `s` encodes an extension of `s`. -/
theorem encodeUtf8_split {s t : Str} {a r : Bytes} (hs : encodeUtf8 s = some a)
    (ht : encodeUtf8 t = some (a ++ r)) : ∃ u, t = s ++ u ∧ encodeUtf8 u = some r := by
  induction s generalizing t a with
  | nil =>
    simp [encodeUtf8] at hs; subst hs
    exact ⟨t, rfl, ht⟩
  | cons c s ih =>
    obtain ⟨x, y, hx, hy, rfl⟩ := encodeUtf8_cons.mp hs
    cases t with
    | nil =>
      simp [encodeUtf8] at ht
      exact absurd ht.1 (utf8Char_ne_nil hx)
    | cons d t =>
      obtain ⟨x', y', hx', hy', hxy⟩ := encodeUtf8_cons.mp ht
      -- both encodings have the same first code point, and the same octets after it
      have h1 := decodeHead_utf8Char hx (y ++ r)
      have h2 := decodeHead_utf8Char hx' y'
      rw [← List.append_assoc, hxy, h2] at h1
      simp only [Option.some.injEq, Prod.mk.injEq] at h1
      obtain ⟨rfl, rfl⟩ := h1
      obtain ⟨u, rfl, hu⟩ := ih hy hy'
      exact ⟨u, rfl, hu⟩

theorem encodeUtf8_injective {s t : Str} {a : Bytes} (hs : encodeUtf8 s = some a)
    (ht : encodeUtf8 t = some a) : s = t := by
  obtain ⟨u, rfl, hu⟩ := encodeUtf8_split hs (r := []) (by simpa using ht)
  cases u with
  | nil => simp
  | cons c u =>
    obtain ⟨x, y, hx, _, hxy⟩ := encodeUtf8_cons.mp hu
    simp at hxy
    exact absurd hxy.1 (utf8Char_ne_nil hx)

theorem encodeUtf8_ascii {s : Str} (h : isAscii s = true) :
    encodeUtf8 s = some (s.map UInt8.ofNat) := by
  induction s with
  | nil => rfl
  | cons c s ih =>
    simp only [isAscii, List.all_cons, Bool.and_eq_true, decide_eq_true_eq] at h
    rw [encodeUtf8, ih h.2, utf8Char, if_pos h.1]
    rfl

theorem encodeUtf8_append_ascii {c : Nat} (hc : c < 0x80) {s t : Str} {a b : Bytes}
    (hs : encodeUtf8 s = some a) (ht : encodeUtf8 t = some b) :
    encodeUtf8 (s ++ c :: t) = some (a ++ UInt8.ofNat c :: b) := by
  rw [encodeUtf8_append, hs, encodeUtf8, ht, utf8Char, if_pos hc]
  rfl

theorem encodeUtf8_split_ascii {c : Nat} (hc : c < 0x80) {s t : Str} {a b : Bytes}
    (hs : encodeUtf8 s = some a) (ht : encodeUtf8 t = some (a ++ UInt8.ofNat c :: b)) :
    ∃ u, t = s ++ c :: u ∧ encodeUtf8 u = some b := by
  obtain ⟨u, rfl, hu⟩ := encodeUtf8_split hs ht
  cases u with
  | nil => simp [encodeUtf8] at hu
  | cons d u =>
    obtain ⟨x, y, hx, hy, hxy⟩ := encodeUtf8_cons.mp hu
    have hd := decodeHead_utf8Char hx y
    have hhead : decodeHead (UInt8.ofNat c :: b) = some (c, b) :=
      decodeHead_utf8Char (b := [UInt8.ofNat c]) (by rw [utf8Char, if_pos hc]) b
    rw [← hxy, hhead, Option.some.injEq, Prod.mk.injEq] at hd
    obtain ⟨rfl, rfl⟩ := hd
    exact ⟨u, rfl, hy⟩

/-- The code points UTF-8 encodes: all but the surrogates, up to U+10FFFF. -/
def isScalar (c : Nat) : Bool := c < 0xD800 || (0xE000 ≤ c && c < 0x110000)

theorem utf8Char_isSome (c : Nat) : (utf8Char c).isSome = isScalar c := by
  rw [Bool.eq_iff_iff]
  simp only [isScalar, Bool.or_eq_true, Bool.and_eq_true, decide_eq_true_eq]
  unfold utf8Char
  repeat' split
  all_goals simp; omega

theorem encodeUtf8_isSome (s : Str) : (encodeUtf8 s).isSome = s.all isScalar := by
  induction s with
  | nil => rfl
  | cons c s ih =>
    rw [List.all_cons, ← ih, ← utf8Char_isSome, encodeUtf8]
    cases utf8Char c with
    | none => rfl
    | some b => cases encodeUtf8 s <;> rfl

theorem isScalar_of_isLatin1 {s : Str} (h : IsLatin1 s) : s.all isScalar = true := by
  rw [List.all_eq_true]
  intro c hc
  have := h c hc
  simp only [isScalar, Bool.or_eq_true, decide_eq_true_eq]
  omega

end Py
