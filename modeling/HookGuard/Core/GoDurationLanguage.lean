import HookGuard.Core.GoDuration

/- The language of Go durations, and how far the scanner of `Core.GoDuration` is
   from it.

   `Denotes s n` is the grammar: an optional sign, then the single character 0 or
   one or more components, each of ASCII digits with an optional dot and ASCII
   digits (at least one digit in all) and a unit; `n` is the signed sum of the
   components. `IsGoDuration` adds the int64 range.

   `components` is the scanner's own cut of a string, arithmetic left out: the
   components it reads, and the text it stops at. `scan_eq` says that the loop is
   its cut, charged component by component. A text made of components is cut into
   just those (`components_textOf`), so a string denotes at most one number, and
   that number is read off its cut (`denotes_iff`). -/
namespace HookGuard
open Py

namespace goduration

/-! ## The grammar -/

structure Component where
  number : Number
  unit : Str
  deriving DecidableEq

def Number.text (m : Number) : Str :=
  m.whole ++ match m.frac with
    | none => []
    | some f => 46 :: f

namespace Component

def text (c : Component) : Str := c.number.text ++ c.unit

def nanos (c : Component) : Int := c.number.nanos (scaleOf c.unit)

/-- The component's digits are `digit`s, at least one in all, and its unit is one. -/
structure Over (digit : Nat → Bool) (c : Component) : Prop where
  whole : ∀ x ∈ c.number.whole, digit x = true
  frac : ∀ x ∈ c.number.frac.getD [], digit x = true
  digits : c.number.isEmpty = false
  unit : c.unit ∈ UNIT_NAMES

end Component

def textOf (cs : List Component) : Str := cs.flatMap Component.text

def total (cs : List Component) : Int := (cs.map Component.nanos).sum

inductive Sign where
  | none
  | plus
  | minus
  deriving DecidableEq

def Sign.text : Sign → Str
  | none => []
  | plus => [43]
  | minus => [45]

def Sign.apply : Sign → Int → Int
  | minus, n => -n
  | _, n => n

/-- The string `s` denotes `n` nanoseconds. -/
inductive Denotes : Str → Int → Prop where
  | zero (g : Sign) : Denotes (g.text ++ lit "0") 0
  | sum (g : Sign) (cs : List Component) (ne : cs ≠ [])
      (digits : ∀ c ∈ cs, c.Over isAsciiDigit) : Denotes (g.text ++ textOf cs) (g.apply (total cs))

/-- `s` is a Go duration of `n` nanoseconds. -/
def IsGoDuration (s : Str) (n : Int) : Prop := Denotes s n ∧ INT64_MIN ≤ n ∧ n ≤ INT64_MAX

/-! ## The scanner's cut -/

/-- The components the scanner reads off a string, and the text it stops at. -/
def components (s : Str) : List Component × Str :=
  if s = [] then ([], [])
  else if (number s).1.isEmpty then ([], s)
  else match _found : UNIT_NAMES.find? (startsWith (number s).2) with
    | none => ([], s)
    | some unit =>
      let cut := components ((number s).2.drop unit.length)
      (⟨(number s).1, unit⟩ :: cut.1, cut.2)
termination_by s.length
decreasing_by
  exact drop_unit_lt _found

/-- The error for the text the scanner stops at. -/
def leftover (orig s : Str) : Exc :=
  if (number s).1.isEmpty then invalidDuration orig else badUnit orig (number s).2

def chargeAll (orig : Str) : List Component → Int → Except Exc Int
  | [], t => .ok t
  | c :: cs, t =>
    match charge orig t c.number (scaleOf c.unit) with
    | .error e => .error e
    | .ok t => chargeAll orig cs t

theorem leftover_goDurationError (orig s : Str) : ∃ m, leftover orig s = .goDurationError m := by
  unfold leftover badUnit
  split
  · exact ⟨_, rfl⟩
  · split <;> exact ⟨_, rfl⟩

theorem components_stop {s : Str} (he : (number s).1.isEmpty = true) :
    components s = ([], s) := by
  by_cases hs : s = []
  · rw [components, if_pos hs, hs]
  · rw [components, if_neg hs, if_pos he]

theorem components_unit {s : Str} (he : (number s).1.isEmpty = false) :
    components s = match UNIT_NAMES.find? (startsWith (number s).2) with
      | none => ([], s)
      | some unit =>
        (⟨(number s).1, unit⟩ :: (components ((number s).2.drop unit.length)).1,
          (components ((number s).2.drop unit.length)).2) := by
  have hs : s ≠ [] := by intro h0; rw [h0] at he; exact absurd he (by decide)
  rw [components, if_neg hs, if_neg (by simp [he])]
  split <;> next hu => simp only [hu]

/-- The loop is its cut, charged component by component. -/
theorem scan_eq (orig s : Str) (t : Int) :
    scan orig s t =
      match chargeAll orig (components s).1 t with
      | .error e => .error e
      | .ok t =>
        if (components s).2 = [] then .ok t else .error (leftover orig (components s).2) := by
  fun_induction scan orig s t with
  | case1 => simp [components, chargeAll]
  | case2 s t hs he => simp [components_stop he, chargeAll, hs, leftover, he]
  | case3 s t hs he hu =>
    rw [Bool.not_eq_true] at he
    simp [components_unit he, hu, chargeAll, hs, leftover, he]
  | case4 s t hs he unit hu e hcharge =>
    rw [Bool.not_eq_true] at he
    simp [components_unit he, hu, chargeAll, hcharge]
  | case5 s t hs he unit hu t' hcharge ih =>
    rw [Bool.not_eq_true] at he
    simp [components_unit he, hu, chargeAll, hcharge, ih]

theorem number_text (s : Str) : s = (number s).1.text ++ (number s).2 := by
  have hs := List.takeWhile_append_dropWhile (p := isDecimal) (l := s)
  unfold number
  split
  · next r hr =>
    rw [hr] at hs
    simp only [Number.text, List.append_assoc, List.cons_append,
      List.takeWhile_append_dropWhile, hs]
  · simp only [Number.text, List.append_nil, hs]

/-- A string is its components and what is left; the components' digits are
    decimal digits of any script. -/
theorem components_spec (s : Str) :
    s = textOf (components s).1 ++ (components s).2 ∧
      ∀ c ∈ (components s).1, c.Over isDecimal := by
  fun_induction components s with
  | case1 => simp [textOf]
  | case2 s hs he => simp [textOf]
  | case3 s hs he hu => simp [textOf]
  | case4 s hs he unit hu cut ih =>
    obtain ⟨htext, hover⟩ := ih
    obtain ⟨r, hr⟩ := startsWith_iff.mp (List.find?_some hu)
    have hd := number_decimal s
    refine ⟨?_, ?_⟩
    · -- the unit found is what the rest starts with, so dropping it cuts there
      rw [hr, List.drop_left] at htext
      calc s = (number s).1.text ++ (unit ++ r) := by rw [← hr]; exact number_text s
        _ = _ := by
          conv => lhs; rw [htext]
          simp [textOf, Component.text, cut, hr]
    · intro c hc
      rcases List.mem_cons.mp hc with rfl | hc
      · exact ⟨hd.1, hd.2, by simpa using he, List.mem_of_find?_eq_some hu⟩
      · exact hover c hc

/-- A text starts a component or nothing: its first character, if any, is a
    decimal digit or a dot. -/
def StartsNumber (s : Str) : Prop := ∀ c r, s = c :: r → isDecimal c = true ∨ c = 46

theorem Component.Over.startsNumber {c : Component} (h : c.Over isDecimal) (r : Str) :
    StartsNumber (c.text ++ r) := by
  intro x t hx
  obtain ⟨hw, hf, hd, -⟩ := h
  obtain ⟨⟨whole, frac⟩, unit⟩ := c
  simp only [Component.text, Number.text] at hx
  match whole, frac, hw, hf, hd with
  | y :: w, _, hw, _, _ =>
    simp only [List.cons_append, List.cons.injEq] at hx
    exact .inl (hx.1 ▸ hw y (by simp))
  | [], some f, _, _, _ =>
    simp only [List.nil_append, List.cons_append, List.cons.injEq] at hx
    exact .inr hx.1.symm
  | [], none, _, _, hd => simp [Number.isEmpty] at hd

theorem startsNumber_textOf {cs : List Component} (h : ∀ c ∈ cs, c.Over isDecimal) :
    StartsNumber (textOf cs) := by
  cases cs with
  | nil => nofun
  | cons c cs => exact (h c (by simp)).startsNumber (textOf cs)

theorem StartsNumber.append {s t : Str} (hs : StartsNumber s) (ht : StartsNumber t) :
    StartsNumber (s ++ t) := by
  intro c r h
  cases s with
  | nil => exact ht c r h
  | cons x s =>
    simp only [List.cons_append, List.cons.injEq] at h
    exact h.1 ▸ hs x s rfl

theorem find_unit {u r : Str} (hu : u ∈ UNIT_NAMES) (hr : StartsNumber r) :
    UNIT_NAMES.find? (startsWith (u ++ r)) = some u := by
  -- no `s` follows, so `m` is not taken for the start of `ms`
  have hs : ∀ x t, r = x :: t → x ≠ 115 := by
    intro x t heq h115
    rw [h115] at heq
    rcases hr _ _ heq with h | h
    · exact absurd h (by decide)
    · exact absurd h (by decide)
  rw [UNIT_NAMES_eq] at hu ⊢
  cases r with
  | nil =>
    revert u
    decide
  | cons x t =>
    have hx : (115 == x) = false := by simp [Ne.symm (hs x t rfl)]
    simp only [List.mem_cons, List.not_mem_nil, or_false] at hu
    rcases hu with rfl | rfl | rfl | rfl | rfl | rfl | rfl | rfl <;>
      simp [startsWith, lit, List.find?, List.isPrefixOf, hx]

theorem exists_find_unit {u : Str} (hu : u ∈ UNIT_NAMES) (r : Str) :
    ∃ v, UNIT_NAMES.find? (startsWith (u ++ r)) = some v := by
  rw [← Option.isSome_iff_exists, List.find?_isSome]
  exact ⟨u, hu, startsWith_iff.mpr ⟨r, rfl⟩⟩

theorem unit_cons {u : Str} (hu : u ∈ UNIT_NAMES) :
    ∃ x t, u = x :: t ∧ isDecimal x = false ∧ x ≠ 46 := by
  rw [UNIT_NAMES_eq] at hu
  simp only [List.mem_cons, List.not_mem_nil, or_false] at hu
  rcases hu with rfl | rfl | rfl | rfl | rfl | rfl | rfl | rfl <;>
    exact ⟨_, _, rfl, by decide, by decide⟩

theorem takeWhile_stop {w r : Str} {x : Nat} (hw : ∀ c ∈ w, isDecimal c = true)
    (hx : isDecimal x = false) :
    (w ++ x :: r).takeWhile isDecimal = w ∧ (w ++ x :: r).dropWhile isDecimal = x :: r := by
  rw [List.takeWhile_append_of_pos hw, List.dropWhile_append_of_pos hw,
    List.takeWhile_cons_of_neg (by simp [hx]), List.dropWhile_cons_of_neg (by simp [hx])]
  simp

/-- The number the scanner matches is the one that is there. -/
theorem number_append {m : Number} {u r : Str} (hm : m.Decimal) (hu : u ∈ UNIT_NAMES) :
    number (m.text ++ u ++ r) = (m, u ++ r) := by
  obtain ⟨whole, frac⟩ := m
  obtain ⟨hw, hf⟩ := hm
  obtain ⟨x, t, rfl, hx, hdot⟩ := unit_cons hu
  cases frac with
  | none =>
    obtain ⟨h1, h2⟩ := takeWhile_stop (r := t ++ r) hw hx
    simp only [Number.text, List.append_nil, List.append_assoc, List.cons_append, number, h1, h2]
    split
    · next hc => simp only [List.cons.injEq] at hc; exact absurd hc.1 hdot
    · rfl
  | some f =>
    obtain ⟨h1, h2⟩ := takeWhile_stop (r := f ++ x :: (t ++ r)) hw (x := 46) (by decide)
    obtain ⟨h3, h4⟩ := takeWhile_stop (r := t ++ r) hf hx
    simp only [Option.getD_some] at h3 h4
    simp only [Number.text, List.append_assoc, List.cons_append, number, h1, h2, h3, h4]

theorem components_append {t : Str} (ht : StartsNumber t) {cs : List Component}
    (h : ∀ c ∈ cs, c.Over isDecimal) :
    components (textOf cs ++ t) = (cs ++ (components t).1, (components t).2) := by
  induction cs with
  | nil => rfl
  | cons c cs ih =>
    have hc := h c (by simp)
    have hcs : ∀ c ∈ cs, c.Over isDecimal := fun x hx => h x (List.mem_cons_of_mem c hx)
    have htext : textOf (c :: cs) ++ t = c.number.text ++ c.unit ++ (textOf cs ++ t) := by
      simp [textOf, Component.text]
    have hn : number (textOf (c :: cs) ++ t) = (c.number, c.unit ++ (textOf cs ++ t)) := by
      rw [htext]; exact number_append ⟨hc.whole, hc.frac⟩ hc.unit
    have hu := find_unit hc.unit ((startsNumber_textOf hcs).append ht)
    rw [components_unit (by rw [hn]; exact hc.digits), hn]
    simp only [hu, List.drop_left, ih hcs, List.cons_append]

/-- A text made of components is cut into just those. -/
theorem components_textOf {cs : List Component} (h : ∀ c ∈ cs, c.Over isDecimal) :
    components (textOf cs) = (cs, []) := by
  have hnil : components [] = ([], []) := by rw [components, if_pos rfl]
  have happ := components_append (t := []) nofun h
  rwa [hnil, List.append_nil, List.append_nil] at happ

/-! ## Denotation is the scanner's cut -/

theorem Component.Over.decimal {c : Component} (h : c.Over isAsciiDigit) : c.Over isDecimal :=
  ⟨fun x hx => isDecimal_of_isAsciiDigit (h.whole x hx),
    fun x hx => isDecimal_of_isAsciiDigit (h.frac x hx), h.digits, h.unit⟩

theorem splitSign_text (g : Sign) {body : Str} (hb : StartsNumber body) :
    splitSign (g.text ++ body) = (g == .minus, body) := by
  have h : ∀ x r, body = x :: r → x ≠ 45 ∧ x ≠ 43 := by
    intro x r hx
    rcases hb x r hx with h | h
    · refine ⟨?_, ?_⟩ <;> intro hsign <;> rw [hsign] at h <;> exact absurd h (by decide)
    · omega
  cases g with
  | none =>
    cases body with
    | nil => rfl
    | cons x r =>
      obtain ⟨h1, h2⟩ := h x r rfl
      simp only [Sign.text, List.nil_append, splitSign]
      split
      · next he => simp only [List.cons.injEq] at he; exact absurd he.1 h1
      · next he => simp only [List.cons.injEq] at he; exact absurd he.1 h2
      · rfl
  | plus => rfl
  | minus => rfl

theorem exists_sign (s : Str) :
    ∃ g : Sign, s = g.text ++ (splitSign s).2 ∧ (splitSign s).1 = (g == .minus) := by
  unfold splitSign
  split
  · exact ⟨.minus, rfl, rfl⟩
  · exact ⟨.plus, rfl, rfl⟩
  · exact ⟨.none, rfl, rfl⟩

theorem Sign.apply_eq (g : Sign) (n : Int) : g.apply n = if g == .minus then -n else n := by
  cases g <;> rfl

/-- A string denotes what the scanner's cut of it adds up to, when the cut leaves
    nothing and its digits are ASCII; or zero, for a bare 0. -/
theorem denotes_iff {s : Str} {n : Int} :
    Denotes s n ↔
      ((splitSign s).2 = lit "0" ∧ n = 0) ∨
      ((components (splitSign s).2).2 = [] ∧ (components (splitSign s).2).1 ≠ [] ∧
        (∀ c ∈ (components (splitSign s).2).1, c.Over isAsciiDigit) ∧
        n = if (splitSign s).1 then -total (components (splitSign s).2).1
          else total (components (splitSign s).2).1) := by
  refine ⟨?_, ?_⟩
  · intro h
    cases h with
    | zero g =>
      have hzero : StartsNumber (lit "0") := by
        intro x r heq
        obtain ⟨rfl, rfl⟩ := List.cons.inj heq
        exact .inl (by decide)
      left
      rw [splitSign_text g hzero]
      exact ⟨rfl, rfl⟩
    | sum g cs ne digits =>
      right
      have hd : ∀ c ∈ cs, c.Over isDecimal := fun c hc => (digits c hc).decimal
      rw [splitSign_text g (startsNumber_textOf hd), components_textOf hd]
      exact ⟨rfl, ne, digits, Sign.apply_eq g _⟩
  · intro h
    obtain ⟨g, hs, hg⟩ := exists_sign s
    rcases h with ⟨h0, rfl⟩ | ⟨hrest, ne, digits, rfl⟩
    · rw [hs, h0]; exact .zero g
    · -- the components the scanner cut off are the components of the string
      have htext := (components_spec (splitSign s).2).1
      rw [hrest, List.append_nil] at htext
      rw [hg, ← Sign.apply_eq]
      conv => lhs; rw [hs, htext]
      exact .sum g _ ne digits

end goduration
end HookGuard
