import HookGuard.Lib.Text

/- `base64.b64decode(s, validate=True)`: the strict mode of `binascii.a2b_base64`.
   The decoder keeps the position in the current quad, the bits not yet written
   and how many padding characters it has counted; padding is counted only from
   the third character of a quad on, nothing may follow a completed one, and
   none may stand behind whole quads (from CPython 3.12.4 on; those before let excess
   padding pass where none is needed).

   `quanta` is the decoder of RFC 4648, a quad at a time. The strict mode reads what it
   reads, as the same octets, and nothing else (`b64decode_eq`). -/
namespace Py

def sextet (c : Nat) : Option Nat :=
  if 65 ≤ c ∧ c ≤ 90 then some (c - 65)
  else if 97 ≤ c ∧ c ≤ 122 then some (c - 71)
  else if 48 ≤ c ∧ c ≤ 57 then some (c + 4)
  else if c = 43 then some 62
  else if c = 47 then some 63
  else none

/-- The loop of `a2b_base64`: `quad` is the position in the quad, `left` the bits
    held over, `pads` the padding counted, `padding` whether any was seen. -/
def a2bStrict : Str → Nat → Nat → Nat → Bool → Option Bytes
  | [], quad, _, _, _ => if quad = 0 then some [] else none
  | 61 :: rest, quad, left, pads, _ =>
    if quad = 0 then none
    else if 2 ≤ quad then
      if 4 ≤ quad + (pads + 1) then (if rest = [] then some [] else none)
      else a2bStrict rest quad left (pads + 1) true
    else a2bStrict rest quad left pads true
  | c :: rest, quad, left, _, padding =>
    match sextet c with
    | none => none
    | some v =>
      if padding then none
      else match quad with
        | 0 => a2bStrict rest 1 v 0 padding
        | 1 => (a2bStrict rest 2 (v % 16) 0 padding).map (UInt8.ofNat (left * 4 + v / 16) :: ·)
        | 2 => (a2bStrict rest 3 (v % 4) 0 padding).map (UInt8.ofNat (left * 16 + v / 4) :: ·)
        | _ => (a2bStrict rest 0 0 0 padding).map (UInt8.ofNat (left * 64 + v) :: ·)

/-- `base64.b64decode(s, validate=True)`; `none` is `binascii.Error`, or the
    `ValueError` for text that is not ASCII. -/
def b64decode (s : Str) : Option Bytes :=
  if !isAscii s then none
  else if s.head? = some 61 then none
  else a2bStrict s 0 0 0 false

/-- The octets of a quad. -/
def quadOctets (x y z w : Nat) : Bytes :=
  [UInt8.ofNat (x * 4 + y / 16), UInt8.ofNat (y % 16 * 16 + z / 4), UInt8.ofNat (z % 4 * 64 + w)]

/-- Quads of the alphabet; the last one may end in one or two characters of padding. -/
def quanta : Str → Option Bytes
  | [] => some []
  | a :: b :: c :: d :: rest =>
    match sextet a, sextet b, sextet c, sextet d with
    | some x, some y, some z, some w => (quanta rest).map (quadOctets x y z w ++ ·)
    | some x, some y, some z, none =>
      if d = 61 ∧ rest = [] then some ((quadOctets x y z 0).take 2) else none
    | some x, some y, none, _ =>
      if c = 61 ∧ d = 61 ∧ rest = [] then some ((quadOctets x y 0 0).take 1) else none
    | _, _, _, _ => none
  | _ => none

example : b64decode (lit "aGk=") = some (bytesLit "hi") := by decide
example : b64decode (lit "AA=A") = none := by decide
example : b64decode (lit "AAAA==") = none := by decide

/-! ## What is read -/

theorem sextet_ne {c v : Nat} (h : sextet c = some v) : c ≠ 61 := by
  rintro rfl
  cases h

theorem a2bStrict_nil (quad left pads : Nat) (padding : Bool) :
    a2bStrict [] quad left pads padding = if quad = 0 then some [] else none :=
  rfl

theorem a2bStrict_pad (rest : Str) (quad left pads : Nat) (padding : Bool) :
    a2bStrict (61 :: rest) quad left pads padding =
      if quad = 0 then none
      else if 2 ≤ quad then
        if 4 ≤ quad + (pads + 1) then (if rest = [] then some [] else none)
        else a2bStrict rest quad left (pads + 1) true
      else a2bStrict rest quad left pads true :=
  rfl

theorem a2bStrict_char {c : Nat} (hc : c ≠ 61) (rest : Str) (quad left pads : Nat)
    (padding : Bool) :
    a2bStrict (c :: rest) quad left pads padding =
      match sextet c with
      | none => none
      | some v =>
        if padding then none
        else match quad with
          | 0 => a2bStrict rest 1 v 0 padding
          | 1 => (a2bStrict rest 2 (v % 16) 0 padding).map (UInt8.ofNat (left * 4 + v / 16) :: ·)
          | 2 => (a2bStrict rest 3 (v % 4) 0 padding).map (UInt8.ofNat (left * 16 + v / 4) :: ·)
          | _ => (a2bStrict rest 0 0 0 padding).map (UInt8.ofNat (left * 64 + v) :: ·) := by
  rw [a2bStrict]
  exact hc

theorem a2bStrict_data {c v : Nat} (h : sextet c = some v) (rest : Str) (left pads : Nat) :
    a2bStrict (c :: rest) 0 left pads false = a2bStrict rest 1 v 0 false ∧
    a2bStrict (c :: rest) 1 left pads false =
      (a2bStrict rest 2 (v % 16) 0 false).map (UInt8.ofNat (left * 4 + v / 16) :: ·) ∧
    a2bStrict (c :: rest) 2 left pads false =
      (a2bStrict rest 3 (v % 4) 0 false).map (UInt8.ofNat (left * 16 + v / 4) :: ·) ∧
    a2bStrict (c :: rest) 3 left pads false =
      (a2bStrict rest 0 0 0 false).map (UInt8.ofNat (left * 64 + v) :: ·) := by
  have hc := sextet_ne h
  refine ⟨?_, ?_, ?_, ?_⟩
  all_goals simp [a2bStrict_char hc, h]

theorem a2bStrict_other {c : Nat} (h : sextet c = none) (hc : c ≠ 61) (rest : Str)
    (quad left pads : Nat) (padding : Bool) :
    a2bStrict (c :: rest) quad left pads padding = none := by
  rw [a2bStrict_char hc, h]

theorem a2bStrict_padding (s : Str) (left pads : Nat) :
    a2bStrict s 1 left pads true = none := by
  induction s with
  | nil => rfl
  | cons c rest ih =>
    by_cases hc : c = 61
    · subst hc
      rw [a2bStrict_pad, if_neg (by omega), if_neg (by omega), ih]
    · rw [a2bStrict_char hc]
      cases sextet c <;> rfl

theorem a2bStrict_third {c : Nat} (h : sextet c = none) (rest : Str) (left : Nat) :
    a2bStrict (c :: rest) 2 left 0 false = if c = 61 ∧ rest = [61] then some [] else none := by
  by_cases hc : c = 61
  · subst hc
    cases rest with
    | nil => rfl
    | cons d rest =>
      by_cases hd : d = 61
      · subst hd
        simp [a2bStrict_pad]
      · rw [a2bStrict_pad, if_neg (by omega), if_pos (by omega), if_neg (by omega),
          a2bStrict_char hd]
        cases sextet d <;> simp [hd]
  · rw [a2bStrict_other h hc, if_neg (by simp [hc])]

theorem a2bStrict_fourth {c : Nat} (h : sextet c = none) (rest : Str) (left : Nat) :
    a2bStrict (c :: rest) 3 left 0 false = if c = 61 ∧ rest = [] then some [] else none := by
  by_cases hc : c = 61
  · subst hc
    simp [a2bStrict_pad]
  · rw [a2bStrict_other h hc, if_neg (by simp [hc])]

theorem a2bStrict_early {c quad : Nat} (hquad : quad < 2) (h : sextet c = none) (rest : Str)
    (left pads : Nat) : a2bStrict (c :: rest) quad left pads false = none := by
  by_cases hc : c = 61
  · subst hc
    rw [a2bStrict_pad]
    by_cases hzero : quad = 0
    · rw [if_pos hzero]
    · obtain rfl : quad = 1 := by omega
      rw [if_neg hzero, if_neg (by omega), a2bStrict_padding]
  · exact a2bStrict_other h hc rest quad left pads false

/-- The automaton, between quads. -/
theorem a2bStrict_eq : ∀ s : Str, a2bStrict s 0 0 0 false = quanta s
  | [] => rfl
  | [a] => by
    cases ha : sextet a with
    | none => simp [a2bStrict_early Nat.zero_lt_two ha, quanta]
    | some x => simp [(a2bStrict_data ha _ 0 0).1, a2bStrict_nil, quanta]
  | [a, b] => by
    cases ha : sextet a with
    | none => simp [a2bStrict_early Nat.zero_lt_two ha, quanta]
    | some x =>
      rw [(a2bStrict_data ha _ 0 0).1]
      cases hb : sextet b with
      | none => simp [a2bStrict_early Nat.one_lt_two hb, quanta]
      | some y => simp [(a2bStrict_data hb _ x 0).2.1, a2bStrict_nil, quanta]
  | [a, b, c] => by
    cases ha : sextet a with
    | none => simp [a2bStrict_early Nat.zero_lt_two ha, quanta]
    | some x =>
      rw [(a2bStrict_data ha _ 0 0).1]
      cases hb : sextet b with
      | none => simp [a2bStrict_early Nat.one_lt_two hb, quanta]
      | some y =>
        rw [(a2bStrict_data hb _ x 0).2.1]
        cases hc : sextet c with
        | none => simp [a2bStrict_third hc, quanta]
        | some z => simp [(a2bStrict_data hc _ _ 0).2.2.1, a2bStrict_nil, quanta]
  | a :: b :: c :: d :: rest => by
    have ih := a2bStrict_eq rest
    cases ha : sextet a with
    | none => simp [a2bStrict_early Nat.zero_lt_two ha, quanta, ha]
    | some x =>
      rw [(a2bStrict_data ha _ 0 0).1]
      cases hb : sextet b with
      | none => simp [a2bStrict_early Nat.one_lt_two hb, quanta, ha, hb]
      | some y =>
        rw [(a2bStrict_data hb _ x 0).2.1]
        cases hc : sextet c with
        | none => simp [a2bStrict_third hc, quanta, ha, hb, hc, quadOctets]
        | some z =>
          rw [(a2bStrict_data hc _ _ 0).2.2.1]
          cases hd : sextet d with
          | none => simp [a2bStrict_fourth hd, quanta, ha, hb, hc, hd, quadOctets]
          | some w =>
            rw [(a2bStrict_data hd _ _ 0).2.2.2, ih]
            simp [quanta, ha, hb, hc, hd, quadOctets, Function.comp_def]

theorem a2bStrict_alphabet {s : Str} {quad left pads : Nat} {padding : Bool} {b : Bytes}
    (h : a2bStrict s quad left pads padding = some b) :
    ∀ c ∈ s, c = 61 ∨ (sextet c).isSome = true := by
  induction s generalizing quad left pads padding b with
  | nil => exact List.forall_mem_nil _
  | cons c rest ih =>
    rw [List.forall_mem_cons]
    by_cases hc : c = 61
    · subst hc
      refine ⟨.inl rfl, ?_⟩
      rw [a2bStrict_pad] at h
      split at h
      · cases h
      · split at h
        · split at h
          · split at h
            · next hnil =>
              rw [hnil]
              exact List.forall_mem_nil _
            · cases h
          · exact ih h
        · exact ih h
    · cases hv : sextet c with
      | none =>
        rw [a2bStrict_other hv hc] at h
        cases h
      | some v =>
        refine ⟨.inr rfl, ?_⟩
        rw [a2bStrict_char hc, hv] at h
        simp only at h
        split at h
        · cases h
        · split at h
          · exact ih h
          all_goals
            obtain ⟨b', hb', -⟩ := Option.map_eq_some_iff.mp h
            exact ih hb'

theorem isAscii_of_alphabet {s : Str} (h : ∀ c ∈ s, c = 61 ∨ (sextet c).isSome = true) :
    isAscii s = true := by
  rw [isAscii, List.all_eq_true]
  intro c hc
  rw [decide_eq_true_eq]
  rcases h c hc with rfl | hv
  · omega
  · unfold sextet at hv
    repeat' split at hv
    all_goals first | omega | cases hv

theorem quanta_pad : ∀ rest : Str, quanta (61 :: rest) = none
  | [] | [_] | [_, _] => rfl
  | _ :: _ :: _ :: _ => rfl

/-- The strict mode reads what RFC 4648 does. -/
theorem b64decode_eq (s : Str) : b64decode s = quanta s := by
  rw [← a2bStrict_eq, b64decode]
  cases hascii : isAscii s with
  | true =>
    rw [Bool.not_true, if_neg Bool.false_ne_true]
    split
    · next hhead =>
      obtain ⟨rest, rfl⟩ : ∃ rest, s = 61 :: rest := by
        cases s with
        | nil => cases hhead
        | cons c rest => exact ⟨rest, by rw [Option.some.inj hhead]⟩
      rw [a2bStrict_eq, quanta_pad]
    · rfl
  | false =>
    cases hread : a2bStrict s 0 0 0 false with
    | none => rfl
    | some b =>
      rw [isAscii_of_alphabet (a2bStrict_alphabet hread)] at hascii
      cases hascii

end Py
