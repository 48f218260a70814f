import HookGuard.Lib.Json
import HookGuard.Lib.Utf8

/- What `json.dumps` writes of a value without floats, `json.loads` reads back
   (`scan_dumps`): with the surrogates of its texts joined, and so as the value itself where
   no text of it has a high surrogate before a low one.

   The value is read wherever it stands, before anything that is not more of a number
   (`ReadBack`); the induction is on how deep it is nested (`Readable`). -/
namespace Json
open Py

/-! ## Numbers, read back -/

/-- The text does not go on with a number. -/
def Stops (s : Str) : Prop :=
  ∀ c r, s = c :: r → isAsciiDigit c = false ∧ c ≠ 46 ∧ c ≠ 101 ∧ c ≠ 69

theorem stops_cons {c : Nat} {s : Str} (h : isAsciiDigit c = false)
    (hc : c ≠ 46 ∧ c ≠ 101 ∧ c ≠ 69) : Stops (c :: s) := by
  intro c' r heq
  obtain ⟨rfl, rfl⟩ := List.cons.inj heq
  exact ⟨h, hc⟩

section Numbers
variable {fl : Floats} {rest : Str}

theorem digits_stop (hstop : Stops rest) {ds : Str} (hds : ∀ c ∈ ds, isAsciiDigit c = true) :
    (ds ++ rest).takeWhile isAsciiDigit = ds ∧ (ds ++ rest).dropWhile isAsciiDigit = rest := by
  have hrest : rest.takeWhile isAsciiDigit = [] ∧ rest.dropWhile isAsciiDigit = rest := by
    cases rest with
    | nil => exact ⟨rfl, rfl⟩
    | cons c r =>
      have hc := (hstop c r rfl).1
      exact ⟨List.takeWhile_cons_of_neg (by simp [hc]), List.dropWhile_cons_of_neg (by simp [hc])⟩
  rw [List.takeWhile_append_of_pos hds, List.dropWhile_append_of_pos hds, hrest.1, hrest.2,
    List.append_nil]
  exact ⟨rfl, rfl⟩

theorem scanDigits_natStr (hstop : Stops rest) (n : Nat) :
    scanDigits (natStr n ++ rest) = some (natStr n, rest) := by
  cases n with
  | zero => rfl
  | succ n =>
    obtain ⟨c, s, hs, hc⟩ := natStr_head (Nat.succ_pos n)
    have hdigits := natStr_digits (n + 1)
    rw [hs, List.forall_mem_cons] at hdigits
    obtain ⟨htake, hdrop⟩ := digits_stop hstop hdigits.2
    rw [hs]
    show scanDigits (c :: (s ++ rest)) = _
    simp only [scanDigits, hc, if_false, hdigits.1, if_true, htake, hdrop]

theorem scanFraction_stop (hstop : Stops rest) : scanFraction rest = ([], rest) := by
  unfold scanFraction
  split
  · next d s =>
    exact absurd rfl (hstop 46 (d :: s) rfl).2.1
  · rfl

theorem scanExponent_stop (hstop : Stops rest) : scanExponent rest = ([], rest) := by
  unfold scanExponent
  split
  · rfl
  · next e r =>
    obtain ⟨-, -, hlower, hupper⟩ := hstop e r rfl
    rw [if_neg (by simp [hlower, hupper])]

theorem natStr_cons (n : Nat) : ∃ c s, natStr n = c :: s ∧ isAsciiDigit c = true := by
  obtain ⟨c, s, hs⟩ := List.exists_cons_of_ne_nil (natStr_ne_nil n)
  exact ⟨c, s, hs, natStr_digits n c (hs ▸ List.mem_cons_self)⟩

theorem scanNumber_intStr (hstop : Stops rest) {n : Int}
    (h : (natStr n.natAbs).length ≤ intMaxStrDigits) :
    scanNumber fl (intStr n ++ rest) = .ok (.int n, rest) := by
  have hint := pyInt_intStr h
  unfold scanNumber
  by_cases hneg : n < 0
  · rw [intStr_of_neg hneg] at hint ⊢
    simp only [List.cons_append, scanSign, scanDigits_natStr hstop, scanFraction_stop hstop,
      scanExponent_stop hstop, List.append_nil, if_true, List.nil_append, hint]
  · rw [intStr_of_nonneg (by omega)] at hint ⊢
    obtain ⟨c, s, hs, hc⟩ := natStr_cons n.natAbs
    have hsign : c ≠ 45 := by
      rintro rfl
      exact absurd hc (by decide)
    have hnone : scanSign (natStr n.natAbs ++ rest) = ([], natStr n.natAbs ++ rest) := by
      rw [hs]
      unfold scanSign
      split
      · next heq => exact absurd (List.cons.inj heq).1 hsign
      · rfl
    simp only [hnone, scanDigits_natStr hstop, scanFraction_stop hstop,
      scanExponent_stop hstop, List.append_nil, if_true, List.nil_append, hint]

theorem scanConstant_digit {c : Nat} {s : Str} (hc : isAsciiDigit c = true) :
    scanConstant (c :: s) = none ∧ scanConstant (45 :: c :: s) = none := by
  simp only [isAsciiDigit, Bool.and_eq_true, decide_eq_true_eq] at hc
  have h1 : (110 == c) = false ∧ (116 == c) = false ∧ (102 == c) = false ∧ (78 == c) = false ∧
      (73 == c) = false ∧ (45 == c) = false := by
    simp only [beq_eq_false_iff_ne]
    omega
  obtain ⟨hn, ht, hf, hN, hI, hm⟩ := h1
  unfold scanConstant constants startsWith lit
  simp [List.isPrefixOf, hn, ht, hf, hN, hI, hm]

theorem scanConstant_intStr (n : Int) : scanConstant (intStr n ++ rest) = none := by
  obtain ⟨c, s, hs, hc⟩ := natStr_cons n.natAbs
  by_cases hneg : n < 0
  · rw [intStr_of_neg hneg, hs]
    exact (scanConstant_digit hc).2
  · rw [intStr_of_nonneg (by omega), hs]
    exact (scanConstant_digit hc).1

theorem intStr_head (n : Int) : ∃ c s, intStr n = c :: s ∧ (isAsciiDigit c = true ∨ c = 45) := by
  obtain ⟨c, s, hs, hc⟩ := natStr_cons n.natAbs
  by_cases hneg : n < 0
  · exact ⟨45, natStr n.natAbs, intStr_of_neg hneg, .inr rfl⟩
  · exact ⟨c, s, (intStr_of_nonneg (by omega)).trans hs, .inl hc⟩

end Numbers

/-! ## Values, read back -/

/-- A value that can be written and read, nested no deeper than so: without floats, without
    numbers of too many digits, and with code points in its texts. -/
inductive Readable : Nat → Value → Prop
  | none {d : Nat} : Readable d .none
  | bool {d : Nat} (b : Bool) : Readable d (.bool b)
  | int {d : Nat} {n : Int} (short : (natStr n.natAbs).length ≤ intMaxStrDigits) :
      Readable d (.int n)
  | str {d : Nat} {s : Str} (points : ∀ c ∈ s, c < 0x110000) : Readable d (.str s)
  | list {d : Nat} {items : List Value} (values : ∀ v ∈ items, Readable d v) :
      Readable (d + 1) (.list items)
  | dict {d : Nat} {members : List (Str × Value)} (names : ∀ m ∈ members, ∀ c ∈ m.1, c < 0x110000)
      (values : ∀ m ∈ members, Readable d m.2) : Readable (d + 1) (.dict members)

theorem Readable.mono {d d' : Nat} {v : Value} (h : Readable d v) (hd : d ≤ d') :
    Readable d' v := by
  induction h generalizing d' with
  | none => exact .none
  | bool b => exact .bool b
  | int short => exact .int short
  | str points => exact .str points
  | list values ih =>
    obtain ⟨d', rfl⟩ : ∃ n, d' = n + 1 := ⟨d' - 1, by omega⟩
    exact .list fun v hv => ih v hv (by omega)
  | dict names values ih =>
    obtain ⟨d', rfl⟩ : ∃ n, d' = n + 1 := ⟨d' - 1, by omega⟩
    exact .dict names fun m hm => ih m hm (by omega)

mutual

/-- A value with the surrogates of its texts joined. -/
def paired : Value → Value
  | .str s => .str (pairUp s)
  | .list items => .list (pairedItems items)
  | .dict members => .dict (pairedMembers members)
  | .none => .none
  | .bool b => .bool b
  | .int n => .int n
  | .float x => .float x

def pairedItems : List Value → List Value
  | [] => []
  | v :: items => paired v :: pairedItems items

def pairedMembers : List (Str × Value) → List (Str × Value)
  | [] => []
  | (k, v) :: members => (pairUp k, paired v) :: pairedMembers members

end

section Blanks
variable {s t : Str}

theorem skipBlanks_blank (h : ∀ c ∈ t, isBlank c = true) : skipBlanks (t ++ s) = skipBlanks s :=
  List.dropWhile_append_of_pos h

theorem skipBlanks_cons {c : Nat} (h : isBlank c = false) : skipBlanks (c :: s) = c :: s :=
  List.dropWhile_cons_of_neg (by simp [h])

variable {l : Layout}

theorem Layout.item_blank (l : Layout) : ∀ c ∈ l.item, isBlank c = true := fun c hc =>
  List.all_eq_true.mp l.blank c (List.mem_append_left _ hc)

theorem Layout.key_blank (l : Layout) : ∀ c ∈ l.key, isBlank c = true := fun c hc =>
  List.all_eq_true.mp l.blank c (List.mem_append_right _ hc)

theorem Layout.newline_blank (l : Layout) (level : Nat) :
    ∀ c ∈ l.newline level, isBlank c = true := by
  unfold Layout.newline
  split
  · exact nofun
  · intro c hc
    rcases List.mem_cons.mp hc with rfl | hc
    · rfl
    · rw [(List.mem_replicate.mp hc).2]
      rfl

theorem stops_newline {c : Nat} (level : Nat) (hc : Stops (c :: s)) :
    Stops (l.newline level ++ c :: s) := by
  unfold Layout.newline
  split
  · exact hc
  · exact stops_cons (by decide) (by decide)

end Blanks

section Values
variable {fl : Floats} {l : Layout}

/-- A value begins with no blank, and with no bracket that closes. -/
theorem encode_head {d : Nat} {v : Value} (h : Readable d v) (level : Nat) :
    ∃ c s, encode fl l level v = c :: s ∧ isBlank c = false ∧ c ≠ 93 ∧ c < 0x80 := by
  cases h with
  | none => exact ⟨_, _, rfl, by decide, by decide, by decide⟩
  | bool b => cases b <;> exact ⟨_, _, rfl, by decide, by decide, by decide⟩
  | @int _ n _ =>
    obtain ⟨c, s, hs, hc⟩ := intStr_head n
    refine ⟨c, s, hs, ?_⟩
    rcases hc with hc | rfl
    · simp only [isAsciiDigit, Bool.and_eq_true, decide_eq_true_eq] at hc
      simp only [isBlank, Bool.or_eq_false_iff, beq_eq_false_iff_ne]
      omega
    · decide
  | str => exact ⟨_, _, rfl, by decide, by decide, by decide⟩
  | @list _ items _ =>
    cases items with
    | nil => exact ⟨91, [93], rfl, by decide, by decide, by decide⟩
    | cons v items => exact ⟨91, _, by rw [encode]; rfl, by decide, by decide, by decide⟩
  | @dict _ members _ _ =>
    cases members with
    | nil => exact ⟨123, [125], rfl, by decide, by decide, by decide⟩
    | cons m members => exact ⟨123, _, by rw [encode]; rfl, by decide, by decide, by decide⟩

theorem length_encodeItems (level : Nat) (items : List Value) :
    items.length ≤ (encodeItems fl l level items).length := by
  induction items with
  | nil => exact Nat.le_refl _
  | cons v items ih =>
    simp only [encodeItems, List.length_cons, List.length_append]
    omega

theorem length_encodeMembers (level : Nat) (members : List (Str × Value)) :
    members.length ≤ (encodeMembers fl l level members).length := by
  induction members with
  | nil => exact Nat.le_refl _
  | cons m members ih =>
    simp only [encodeMembers, List.length_cons, List.length_append]
    omega

/-- The value is read back wherever it stands. -/
def ReadBack (fl : Floats) (l : Layout) (d : Nat) (v : Value) : Prop :=
  ∀ level rest, Stops rest → scanOnce fl d (encode fl l level v ++ rest) = .ok (paired v, rest)

theorem scanItems_last {value : Str → Scan Value} {fuel : Nat} {s r rest : Str} {v : Value}
    (hv : value s = .ok (v, r)) (hr : skipBlanks r = 93 :: rest) :
    scanItems value (fuel + 1) s = .ok ([v], rest) := by
  simp only [scanItems, hv, hr]

theorem scanItems_next {value : Str → Scan Value} {fuel : Nat} {s r r' rest : Str} {v : Value}
    {items : List Value} (hv : value s = .ok (v, r)) (hr : skipBlanks r = 44 :: r')
    (hitems : scanItems value fuel (skipBlanks r') = .ok (items, rest)) :
    scanItems value (fuel + 1) s = .ok (v :: items, rest) := by
  simp only [scanItems, hv, hr, hitems]
  rfl

theorem scanMembers_last {value : Str → Scan Value} {fuel : Nat} {s r rest : Str}
    {m : Str × Value} (hm : scanMember value s = .ok (m, r)) (hr : skipBlanks r = 125 :: rest) :
    scanMembers value (fuel + 1) s = .ok ([m], rest) := by
  simp only [scanMembers, hm, hr]

theorem scanMembers_next {value : Str → Scan Value} {fuel : Nat} {s r r' rest : Str}
    {m : Str × Value} {members : List (Str × Value)} (hm : scanMember value s = .ok (m, r))
    (hr : skipBlanks r = 44 :: r')
    (hmembers : scanMembers value fuel (skipBlanks r') = .ok (members, rest)) :
    scanMembers value (fuel + 1) s = .ok (m :: members, rest) := by
  simp only [scanMembers, hm, hr, hmembers]
  rfl

theorem skipBlanks_close {close : Nat} (hclose : isBlank close = false) (level : Nat)
    (rest : Str) : skipBlanks (l.newline level ++ close :: rest) = close :: rest := by
  rw [skipBlanks_blank (l.newline_blank level), skipBlanks_cons hclose]

theorem skipBlanks_string (s r : Str) : skipBlanks (encodeString s ++ r) = encodeString s ++ r :=
  skipBlanks_cons (by decide)

theorem skipBlanks_item {s : Str} (level : Nat) (hs : skipBlanks s = s) :
    skipBlanks (l.item ++ (l.newline level ++ s)) = s := by
  rw [skipBlanks_blank l.item_blank, skipBlanks_blank (l.newline_blank level), hs]

theorem scanItems_encode {d level fuel : Nat} {rest : Str} {v : Value} {items : List Value}
    (hread : ∀ v' ∈ v :: items, ReadBack fl l d v' ∧ Readable d v')
    (hfuel : items.length < fuel) :
    scanItems (scanOnce fl d) fuel
      (encode fl l (level + 1) v ++ (encodeItems fl l (level + 1) items ++
        (l.newline level ++ 93 :: rest))) = .ok (paired v :: pairedItems items, rest) := by
  obtain ⟨fuel, rfl⟩ : ∃ n, fuel = n + 1 := ⟨fuel - 1, by omega⟩
  have hv := (hread v List.mem_cons_self).1 (level + 1)
  induction items generalizing v fuel with
  | nil =>
    exact scanItems_last (hv _ (stops_newline level (stops_cons (by decide) (by decide))))
      (skipBlanks_close (by decide) level rest)
  | cons w items ih =>
    rw [List.forall_mem_cons] at hread
    have hw := hread.2 w List.mem_cons_self
    obtain ⟨c, s, hhead, hc, -⟩ := @encode_head fl l _ _ hw.2 (level + 1)
    obtain ⟨fuel, rfl⟩ : ∃ n, fuel = n + 1 := ⟨fuel - 1, by rw [List.length_cons] at hfuel; omega⟩
    have htext : encodeItems fl l (level + 1) (w :: items) ++ (l.newline level ++ 93 :: rest) =
        44 :: (l.item ++ (l.newline (level + 1) ++ (encode fl l (level + 1) w ++
          (encodeItems fl l (level + 1) items ++ (l.newline level ++ 93 :: rest))))) := by
      simp [encodeItems]
    rw [htext]
    refine scanItems_next (hv _ (stops_cons (by decide) (by decide)))
      (skipBlanks_cons (by decide)) ?_
    rw [skipBlanks_item _ (by rw [hhead]; exact skipBlanks_cons hc)]
    exact ih hread.2 fuel (by rw [List.length_cons] at hfuel; omega) (hw.1 (level + 1))

theorem scanMember_encode {d level : Nat} {rest : Str} {m : Str × Value}
    (hname : ∀ c ∈ m.1, c < 0x110000) (hread : ReadBack fl l d m.2) (hvalue : Readable d m.2)
    (hrest : Stops rest) :
    scanMember (scanOnce fl d) (encodeString m.1 ++ (58 :: (l.key ++ (encode fl l level m.2 ++
      rest)))) = .ok ((pairUp m.1, paired m.2), rest) := by
  obtain ⟨c, s, hhead, hc, -⟩ := @encode_head fl l _ _ hvalue level
  have htext : encodeString m.1 ++ (58 :: (l.key ++ (encode fl l level m.2 ++ rest))) =
      34 :: (m.1.flatMap escapeChar ++ 34 :: 58 :: (l.key ++ (encode fl l level m.2 ++ rest))) := by
    simp [encodeString]
  have hblank : skipBlanks (l.key ++ (encode fl l level m.2 ++ rest)) =
      encode fl l level m.2 ++ rest := by
    rw [skipBlanks_blank l.key_blank, hhead]
    exact skipBlanks_cons hc
  rw [htext]
  simp only [scanMember, scanString_escaped hname,
    skipBlanks_cons (show isBlank 58 = false from rfl), hblank, hread level rest hrest]
  rfl

theorem scanMembers_encode {d level fuel : Nat} {rest : Str} {m : Str × Value}
    {members : List (Str × Value)}
    (hread : ∀ m' ∈ m :: members, (∀ c ∈ m'.1, c < 0x110000) ∧ ReadBack fl l d m'.2 ∧
      Readable d m'.2)
    (hfuel : members.length < fuel) :
    scanMembers (scanOnce fl d) fuel
      (encodeString m.1 ++ (58 :: (l.key ++ (encode fl l (level + 1) m.2 ++
        (encodeMembers fl l (level + 1) members ++ (l.newline level ++ 125 :: rest)))))) =
      .ok ((pairUp m.1, paired m.2) :: pairedMembers members, rest) := by
  induction members generalizing m fuel with
  | nil =>
    obtain ⟨fuel, rfl⟩ : ∃ n, fuel = n + 1 := ⟨fuel - 1, by omega⟩
    obtain ⟨hname, hvalue, hreadable⟩ := hread m List.mem_cons_self
    exact scanMembers_last (scanMember_encode hname hvalue hreadable
      (stops_newline level (stops_cons (by decide) (by decide))))
      (skipBlanks_close (by decide) level rest)
  | cons n members ih =>
    obtain ⟨fuel, rfl⟩ : ∃ n, fuel = n + 1 := ⟨fuel - 1, by omega⟩
    rw [List.forall_mem_cons] at hread
    obtain ⟨⟨hname, hvalue, hreadable⟩, hrest⟩ := hread
    have htext : encodeMembers fl l (level + 1) (n :: members) ++
        (l.newline level ++ 125 :: rest) =
        44 :: (l.item ++ (l.newline (level + 1) ++ (encodeString n.1 ++ (58 :: (l.key ++
          (encode fl l (level + 1) n.2 ++ (encodeMembers fl l (level + 1) members ++
            (l.newline level ++ 125 :: rest)))))))) := by
      simp [encodeMembers]
    rw [htext]
    refine scanMembers_next (scanMember_encode hname hvalue hreadable
      (stops_cons (by decide) (by decide))) (skipBlanks_cons (by decide)) ?_
    rw [skipBlanks_item _ (skipBlanks_string n.1 _)]
    exact ih hrest (by rw [List.length_cons] at hfuel; omega)

/-- A value that is written is read back, whatever it stands before, as long as that is not
    more of a number. -/
theorem scanOnce_encode {d : Nat} {v : Value} (h : Readable d v) : ReadBack fl l d v := by
  induction h with
  | none =>
    intro level rest _
    unfold scanOnce
    rfl
  | bool b =>
    intro level rest _
    unfold scanOnce
    cases b <;> rfl
  | @int d n short =>
    intro level rest hstop
    obtain ⟨c, s, hs, hc⟩ := intStr_head n
    have hhead : c ≠ 34 ∧ c ≠ 123 ∧ c ≠ 91 := by
      rcases hc with hc | rfl
      · simp only [isAsciiDigit, Bool.and_eq_true, decide_eq_true_eq] at hc
        omega
      · decide
    have hconstant := @scanConstant_intStr rest n
    have hnumber := @scanNumber_intStr fl rest hstop n short
    rw [encode]
    rw [hs] at hconstant hnumber ⊢
    show scanOnce fl d (c :: (s ++ rest)) = _
    unfold scanOnce
    simp only [hhead, if_false]
    rw [show c :: (s ++ rest) = c :: s ++ rest from rfl, hconstant]
    exact hnumber
  | @str d s points =>
    intro level rest hstop
    rw [encode]
    have htext : encodeString s ++ rest = 34 :: (s.flatMap escapeChar ++ 34 :: rest) := by
      simp [encodeString]
    rw [htext]
    unfold scanOnce
    simp only [if_true, scanString_escaped points]
    rfl
  | @list d items values ih =>
    intro level rest hstop
    cases items with
    | nil => rfl
    | cons v items =>
      obtain ⟨c, s, hhead, hc, hclose, -⟩ := @encode_head fl l _ _ (values v List.mem_cons_self)
        (level + 1)
      have htext : encode fl l level (.list (v :: items)) ++ rest =
          91 :: (l.newline (level + 1) ++ (encode fl l (level + 1) v ++
            (encodeItems fl l (level + 1) items ++ (l.newline level ++ 93 :: rest)))) := by
        rw [encode]
        simp
      have hblank : ∀ r, skipBlanks (l.newline (level + 1) ++ (encode fl l (level + 1) v ++ r)) =
          encode fl l (level + 1) v ++ r := by
        intro r
        rw [skipBlanks_blank (l.newline_blank _), hhead]
        exact skipBlanks_cons hc
      have hfuel : items.length < (encode fl l (level + 1) v ++
          (encodeItems fl l (level + 1) items ++ (l.newline level ++ 93 :: rest))).length + 1 := by
        have := @length_encodeItems fl l (level + 1) items
        simp only [List.length_append]
        omega
      have hitems := @scanItems_encode fl l d level _ rest v items
        (fun v' hv' => ⟨ih v' hv', values v' hv'⟩) hfuel
      rw [htext]
      unfold scanOnce
      simp only [show ¬ (91 : Nat) = 34 by decide, show ¬ (91 : Nat) = 123 by decide, if_false,
        if_true, hblank]
      split
      · next r heq =>
        rw [hhead] at heq
        exact absurd (List.cons.inj heq).1 hclose
      · rw [hitems]
        rfl
  | @dict d members names values ih =>
    intro level rest hstop
    cases members with
    | nil => rfl
    | cons m members =>
      obtain ⟨k, v⟩ := m
      have htext : encode fl l level (.dict ((k, v) :: members)) ++ rest =
          123 :: (l.newline (level + 1) ++ (encodeString k ++ (58 :: (l.key ++
            (encode fl l (level + 1) v ++ (encodeMembers fl l (level + 1) members ++
              (l.newline level ++ 125 :: rest))))))) := by
        rw [encode]
        simp
      have hblank : ∀ r, skipBlanks (l.newline (level + 1) ++ (encodeString k ++ r)) =
          encodeString k ++ r := by
        intro r
        rw [skipBlanks_blank (l.newline_blank _), skipBlanks_string]
      have hfuel : members.length < (encodeString k ++ (58 :: (l.key ++
          (encode fl l (level + 1) v ++ (encodeMembers fl l (level + 1) members ++
            (l.newline level ++ 125 :: rest)))))).length + 1 := by
        have := @length_encodeMembers fl l (level + 1) members
        simp only [List.length_append, List.length_cons]
        omega
      have hmembers := @scanMembers_encode fl l d level _ rest (k, v) members
        (fun m' hm' => ⟨names m' hm', ih m' hm', values m' hm'⟩) hfuel
      rw [htext]
      unfold scanOnce
      simp only [show ¬ (123 : Nat) = 34 by decide, if_false, if_true, hblank]
      split
      · next r heq =>
        rw [encodeString, List.cons_append] at heq
        exact absurd (List.cons.inj heq).1 (by decide)
      · rw [hmembers]
        rfl

theorem escapeChar_printable {c : Nat} : ∀ c' ∈ escapeChar c, 32 ≤ c' ∧ c' ≤ 126 := by
  have hunicode : ∀ u, ∀ c' ∈ unicodeEscape u, 32 ≤ c' ∧ c' ≤ 126 := by
    intro u c' hc'
    have hdigit : ∀ n, n < 16 → 32 ≤ hexDigit n ∧ hexDigit n ≤ 126 := by decide
    have hlit : unicodeEscape u = 92 :: 117 :: hexPad 4 u := rfl
    rw [hlit, hexPad_four] at hc'
    simp only [List.mem_cons, List.not_mem_nil, or_false] at hc'
    rcases hc' with rfl | rfl | rfl | rfl | rfl | rfl
    · decide
    · decide
    all_goals exact hdigit _ (Nat.mod_lt _ (by decide))
  intro c' hc'
  by_cases hsmall : c < 0x80
  · have all : ∀ c < 0x80, ∀ c' ∈ escapeChar c, 32 ≤ c' ∧ c' ≤ 126 := by decide +kernel
    exact all c hsmall c' hc'
  · unfold escapeChar at hc'
    repeat rw [if_neg (by omega)] at hc'
    split at hc'
    · exact hunicode c c' hc'
    · rcases List.mem_append.mp hc' with hc' | hc'
      · exact hunicode _ c' hc'
      · exact hunicode _ c' hc'

section Characters
variable {P : Nat → Prop}

theorem encodeString_all (hprint : ∀ c, 32 ≤ c → c ≤ 126 → P c) (s : Str) :
    ∀ c ∈ encodeString s, P c := by
  intro c hc
  simp only [encodeString, List.cons_append, List.mem_cons, List.mem_append, List.mem_flatMap,
    List.not_mem_nil, or_false] at hc
  rcases hc with rfl | ⟨c', -, hc⟩ | rfl
  · exact hprint 34 (by decide) (by decide)
  · obtain ⟨hlow, hhigh⟩ := escapeChar_printable c hc
    exact hprint c hlow hhigh
  · exact hprint 34 (by decide) (by decide)

/-- What holds of the printable characters, the blanks and the line breaks, holds of all that
    is written. -/
theorem encode_all {d : Nat} {v : Value} (h : Readable d v)
    (hprint : ∀ c, 32 ≤ c → c ≤ 126 → P c) (hpad : ∀ c ∈ l.item ++ l.key, P c)
    (hline : ∀ level, ∀ c ∈ l.newline level, P c) (level : Nat) :
    ∀ c ∈ encode fl l level v, P c := by
  have hitem : ∀ c ∈ l.item, P c := fun c hc => hpad c (List.mem_append_left _ hc)
  have hkey : ∀ c ∈ l.key, P c := fun c hc => hpad c (List.mem_append_right _ hc)
  have hpunct : P 44 ∧ P 58 ∧ P 91 ∧ P 93 ∧ P 123 ∧ P 125 := by
    refine ⟨?_, ?_, ?_, ?_, ?_, ?_⟩
    all_goals exact hprint _ (by decide) (by decide)
  obtain ⟨hcomma, hcolon, hopen, hclose, hbrace, hbrace'⟩ := hpunct
  have hlit : ∀ s : Str, (∀ c ∈ s, 32 ≤ c ∧ c ≤ 126) → ∀ c ∈ s, P c :=
    fun s hs c hc => hprint c (hs c hc).1 (hs c hc).2
  induction h generalizing level with
  | none =>
    rw [encode]
    exact hlit _ (by decide)
  | bool b =>
    cases b with
    | true => rw [encode]; exact hlit _ (by decide)
    | false => rw [encode]; exact hlit _ (by decide)
  | @int d n short =>
    rw [encode]
    intro c hc
    have hle := intStr_le c hc
    refine hprint c ?_ (by omega)
    obtain hneg | hneg := lt_or_ge n 0
    · rw [intStr_of_neg hneg] at hc
      rcases List.mem_cons.mp hc with rfl | hc
      · decide
      · have := natStr_digits _ c hc
        simp only [isAsciiDigit, Bool.and_eq_true, decide_eq_true_eq] at this
        omega
    · rw [intStr_of_nonneg hneg] at hc
      have := natStr_digits _ c hc
      simp only [isAsciiDigit, Bool.and_eq_true, decide_eq_true_eq] at this
      omega
  | @str d s points =>
    rw [encode]
    exact encodeString_all hprint s
  | @list d items values ih =>
    cases items with
    | nil =>
      rw [encode]
      exact hlit _ (by decide)
    | cons v items =>
      rw [List.forall_mem_cons] at ih
      have hrest : ∀ c ∈ encodeItems fl l (level + 1) items, P c := by
        have ihs := ih.2
        clear ih values
        induction items with
        | nil => exact List.forall_mem_nil _
        | cons w items ihl =>
          rw [List.forall_mem_cons] at ihs
          rw [encodeItems]
          simp only [List.cons_append, List.append_assoc, List.forall_mem_cons,
            List.forall_mem_append]
          exact ⟨hcomma, hitem, hline _, ihs.1 _, ihl ihs.2⟩
      rw [encode]
      simp only [List.cons_append, List.append_assoc, List.forall_mem_cons, List.forall_mem_append]
      exact ⟨hopen, hline _, ih.1 _, hrest, hline _, hclose, List.forall_mem_nil _⟩
  | @dict d members names values ih =>
    cases members with
    | nil =>
      rw [encode]
      exact hlit _ (by decide)
    | cons m members =>
      obtain ⟨k, v⟩ := m
      rw [List.forall_mem_cons] at ih
      have hrest : ∀ c ∈ encodeMembers fl l (level + 1) members, P c := by
        have ihs := ih.2
        clear ih values names
        induction members with
        | nil => exact List.forall_mem_nil _
        | cons w members ihl =>
          rw [List.forall_mem_cons] at ihs
          rw [encodeMembers]
          simp only [List.cons_append, List.append_assoc, List.forall_mem_cons,
            List.forall_mem_append]
          exact ⟨hcomma, hitem, hline _, encodeString_all hprint _, hcolon, hkey, ihs.1 _,
            ihl ihs.2⟩
      rw [encode]
      simp only [List.cons_append, List.append_assoc, List.forall_mem_cons, List.forall_mem_append]
      exact ⟨hbrace, hline _, encodeString_all hprint _, hcolon, hkey, ih.1 _, hrest, hline _,
        hbrace', List.forall_mem_nil _⟩

end Characters

/-- A text that is written, on lines of its own or not, is read as the value it was written
    from, with surrogates joined. -/
theorem scan_dumps {d : Nat} {v : Value} (h : Readable d v) {tail : Str}
    (htail : ∀ c ∈ tail, isBlank c = true) :
    scan fl d (dumps fl l v ++ tail) = .ok (paired v) := by
  obtain ⟨c, s, hhead, hc, -⟩ := @encode_head fl l _ _ h 0
  have hstop : Stops tail := by
    intro c r heq
    have hblank := htail c (heq ▸ List.mem_cons_self)
    simp only [isBlank, Bool.or_eq_true, beq_iff_eq] at hblank
    simp only [isAsciiDigit, Bool.and_eq_false_iff, decide_eq_false_iff_not]
    omega
  have hread := @scanOnce_encode fl l _ _ h 0 tail hstop
  have hskip : skipBlanks (dumps fl l v ++ tail) = dumps fl l v ++ tail := by
    rw [dumps, hhead]
    exact skipBlanks_cons hc
  have hend : skipBlanks tail = [] := List.dropWhile_eq_nil_iff.mpr htail
  unfold scan
  rw [hskip, dumps, hread]
  simp only [hend]

theorem scalar_readable {s : Str} (h : s.all isScalar = true) (d : Nat) :
    Readable d (.str s) ∧ paired (.str s) = .str s := by
  have hpoint : ∀ c ∈ s, c < 0x110000 ∧ isHigh c = false := by
    intro c hc
    have hscalar := List.all_eq_true.mp h c hc
    simp only [isScalar, Bool.or_eq_true, Bool.and_eq_true, decide_eq_true_eq] at hscalar
    simp only [isHigh, Bool.and_eq_false_iff, decide_eq_false_iff_not]
    omega
  exact ⟨.str fun c hc => (hpoint c hc).1,
    congrArg Value.str (pairUp_of_not_high fun c hc => (hpoint c hc).2)⟩

end Values

end Json
