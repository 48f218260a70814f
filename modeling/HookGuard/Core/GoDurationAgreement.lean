import HookGuard.Core.GoDurationLanguage

/- How far `parseGoDurationNs` is from the language of Go durations.

   The scanner adds its cut up from left to right and can stop on the way: at a
   digit run past the limit of `int`, or at a total past int64 (`chargeAll_cases`).
   Against the grammar that leaves three kinds of string on which the code is not
   Go (`Strays`): a run past the limit of `int`, reached while the total is still
   in range, raises a plain `ValueError`; digits that are not ASCII are accepted;
   and a negative duration of exactly 2^63 nanoseconds is refused. On every other
   string the code is Go (`parseGoDurationNs_meets_iff`). -/
namespace HookGuard
open Py

namespace goduration

/-! ## The running total -/

theorem scaleOf_nonneg {u : Str} (hu : u ∈ UNIT_NAMES) : 0 ≤ scaleOf u := by
  revert u
  rw [UNIT_NAMES_eq]
  decide

theorem Number.nanos_nonneg (m : Number) {scale : Int} (h : 0 ≤ scale) : 0 ≤ m.nanos scale := by
  have hw : 0 ≤ (digitsValue m.whole : Int) * scale := Int.mul_nonneg (by omega) h
  have hf : 0 ≤ (digitsValue (m.frac.getD []) : Int) * scale := Int.mul_nonneg (by omega) h
  exact Int.add_nonneg hw (Int.ediv_nonneg hf (Int.le_of_lt (Int.pow_pos (by decide))))

theorem Component.Over.nanos_nonneg {digit : Nat → Bool} {c : Component} (h : c.Over digit) :
    0 ≤ c.nanos :=
  c.number.nanos_nonneg (scaleOf_nonneg h.unit)

@[simp] theorem total_nil : total [] = 0 := rfl

@[simp] theorem total_cons (c : Component) (cs : List Component) :
    total (c :: cs) = c.nanos + total cs := by
  simp [total]

theorem total_nonneg {digit : Nat → Bool} {cs : List Component} (h : ∀ c ∈ cs, c.Over digit) :
    0 ≤ total cs := by
  induction cs with
  | nil => simp
  | cons c cs ih =>
    have hc := (h c (by simp)).nanos_nonneg
    have hcs := ih fun x hx => h x (List.mem_cons_of_mem c hx)
    rw [total_cons]
    omega

/-- A run past the limit of `int`, with the total in range up to it. -/
def LongRun (cs : List Component) (t : Int) : Prop :=
  ∃ before c after, cs = before ++ c :: after ∧ t + total before ≤ INT64_MAX ∧ ¬ c.number.Short

theorem longRun_cons {c : Component} {cs : List Component} {t : Int} (ht : t ≤ INT64_MAX)
    (hcs : ∀ x ∈ cs, x.Over isDecimal) :
    LongRun (c :: cs) t ↔
      ¬ c.number.Short ∨ (t + c.nanos ≤ INT64_MAX ∧ LongRun cs (t + c.nanos)) := by
  refine ⟨?_, ?_⟩
  · intro h
    obtain ⟨before, x, after, heq, hle, hx⟩ := h
    cases before with
    | nil =>
      simp only [List.nil_append, List.cons.injEq] at heq
      exact .inl (heq.1 ▸ hx)
    | cons b before =>
      simp only [List.cons_append, List.cons.injEq] at heq
      obtain ⟨rfl, rfl⟩ := heq
      have hb : 0 ≤ total before := total_nonneg fun y hy => hcs y (by simp [hy])
      rw [total_cons] at hle
      exact .inr ⟨by omega, before, x, after, rfl, by omega, hx⟩
  · intro h
    rcases h with hc | ⟨hle, before, x, after, rfl, hsum, hx⟩
    · exact ⟨[], c, cs, rfl, by simpa using ht, hc⟩
    · exact ⟨c :: before, x, after, rfl, by rw [total_cons]; omega, hx⟩

theorem chargeAll_cases (orig : Str) {cs : List Component} {t : Int}
    (h : ∀ c ∈ cs, c.Over isDecimal) (ht : t ≤ INT64_MAX) :
    (LongRun cs t ∧ chargeAll orig cs t = .error tooManyDigits) ∨
    (¬ LongRun cs t ∧ INT64_MAX < t + total cs ∧ chargeAll orig cs t = .error (overflows orig)) ∨
    (¬ LongRun cs t ∧ t + total cs ≤ INT64_MAX ∧ chargeAll orig cs t = .ok (t + total cs)) := by
  -- the total is in range before each component, which is what the next one is charged to
  induction cs generalizing t with
  | nil =>
    refine .inr (.inr ⟨?_, by simpa using ht, by simp [chargeAll]⟩)
    intro hlong
    obtain ⟨before, c, after, hnil, -, -⟩ := hlong
    simp at hnil
  | cons c cs ih =>
    have hc := h c (by simp)
    have hcs : ∀ x ∈ cs, x.Over isDecimal := fun x hx => h x (List.mem_cons_of_mem c hx)
    have hnn := total_nonneg hcs
    have hcharge : charge orig t c.number (scaleOf c.unit) =
        if c.number.Short then
          if t + c.nanos > INT64_MAX then .error (overflows orig) else .ok (t + c.nanos)
        else .error tooManyDigits := charge_eq ⟨hc.whole, hc.frac⟩
    rw [longRun_cons ht hcs, chargeAll, hcharge, total_cons]
    by_cases hshort : c.number.Short
    · by_cases hover : t + c.nanos > INT64_MAX
      · -- this component takes the total out of range: no later run is reached
        refine .inr (.inl ⟨?_, by omega, by simp only [hshort, hover, if_true]⟩)
        intro hlong
        rcases hlong with hn | ⟨hle, -⟩
        · exact hn hshort
        · omega
      · have hle : t + c.nanos ≤ INT64_MAX := by omega
        have ih := ih hcs hle
        simpa only [hshort, hover, hle, not_true, false_or, true_and, if_true, if_false,
          Int.add_assoc] using ih
    · exact .inl ⟨.inl hshort, by simp only [hshort, if_false]⟩

/-! ## The scanner against the language -/

/-- The property a Go duration parser has. -/
def Meets (parse : Str → Except Exc Int) (s : Str) : Prop :=
  (∀ n, parse s = .ok n ↔ IsGoDuration s n) ∧
    ((¬ ∃ n, IsGoDuration s n) → ∃ m, parse s = .error (.goDurationError m))

/-- The strings on which the code is not Go. -/
inductive Strays : Str → Prop where
  /-- A run past the limit of `int`, the total in range up to it; whatever follows. -/
  | longRun (g : Sign) (before : List Component) (c : Component) (r : Str)
      (digits : ∀ x ∈ before, x.Over isDecimal) (digitsc : c.Over isDecimal)
      (fits : total before ≤ INT64_MAX) (long : ¬ c.number.Short) :
      Strays (g.text ++ (textOf before ++ (c.text ++ r)))
  /-- A duration in digits some of which are not ASCII. -/
  | script (g : Sign) (cs : List Component) (digits : ∀ c ∈ cs, c.Over isDecimal)
      (fits : total cs ≤ INT64_MAX) (other : ¬ ∀ c ∈ cs, c.Over isAsciiDigit) :
      Strays (g.text ++ textOf cs)
  /-- The least duration Go has. -/
  | least (cs : List Component) (digits : ∀ c ∈ cs, c.Over isAsciiDigit)
      (edge : -total cs = INT64_MIN) : Strays (Sign.minus.text ++ textOf cs)

/-- The parser, from the cut of what follows the sign. -/
theorem parseGoDurationNs_eq (s : Str) :
    parseGoDurationNs s =
      if (splitSign s).2 = lit "0" then .ok 0
      else if (splitSign s).2 = [] then .error (invalidDuration s)
      else match chargeAll s (components (splitSign s).2).1 0 with
        | .error e => .error e
        | .ok t =>
          if (components (splitSign s).2).2 = [] then
            let n := if (splitSign s).1 then -t else t
            if INT64_MIN ≤ n ∧ n ≤ INT64_MAX then .ok n else .error (overflows s)
          else .error (leftover s (components (splitSign s).2).2) := by
  simp only [parseGoDurationNs, scan_eq]
  split
  · rfl
  · split
    · rfl
    · cases chargeAll s (components (splitSign s).2).1 0 with
      | error e => rfl
      | ok t =>
        by_cases hr : (components (splitSign s).2).2 = []
        · simp only [hr, if_true]
        · simp only [hr, if_false]

theorem components_text {c : Component} (h : c.Over isDecimal) (r : Str) :
    ∃ u cs, (components (c.text ++ r)).1 = ⟨c.number, u⟩ :: cs := by
  have hn : number (c.text ++ r) = (c.number, c.unit ++ r) :=
    number_append ⟨h.whole, h.frac⟩ h.unit
  obtain ⟨v, hv⟩ := exists_find_unit h.unit r
  rw [components_unit (by rw [hn]; exact h.digits), hn]
  simp only [hv]
  exact ⟨_, _, rfl⟩

theorem components_zero : components (lit "0") = ([], lit "0") := by
  rw [components_unit (by decide), show (number (lit "0")).2 = [] by decide,
    show UNIT_NAMES.find? (startsWith []) = none by decide]

theorem strays_iff {s : Str} {cs : List Component} {rest : Str}
    (hcut : components (splitSign s).2 = (cs, rest)) :
    Strays s ↔ LongRun cs 0 ∨
      (rest = [] ∧ total cs ≤ INT64_MAX ∧ ¬ ∀ c ∈ cs, c.Over isAsciiDigit) ∨
      (rest = [] ∧ (splitSign s).1 = true ∧ (∀ c ∈ cs, c.Over isAsciiDigit) ∧
        -total cs = INT64_MIN) := by
  obtain ⟨g, hs, hg⟩ := exists_sign s
  obtain ⟨hbody, hover⟩ := components_spec (splitSign s).2
  rw [hcut] at hbody hover
  simp only at hbody hover
  refine ⟨?_, ?_⟩
  · intro h
    cases h with
    | longRun g before c r digits digitsc fits long =>
      -- whatever follows, the cut goes through the long run
      left
      have hstart := (startsNumber_textOf digits).append (digitsc.startsNumber r)
      rw [splitSign_text g hstart, components_append (digitsc.startsNumber r) digits] at hcut
      obtain ⟨u, after, hu⟩ := components_text digitsc r
      rw [hu, Prod.mk.injEq] at hcut
      exact ⟨before, ⟨c.number, u⟩, after, hcut.1.symm, by simpa using fits, long⟩
    | script g cs' digits fits other =>
      rw [splitSign_text g (startsNumber_textOf digits), components_textOf digits] at hcut
      obtain ⟨rfl, rfl⟩ := Prod.mk.inj hcut
      exact .inr (.inl ⟨rfl, fits, other⟩)
    | least cs' digits edge =>
      have hd : ∀ c ∈ cs', c.Over isDecimal := fun c hc => (digits c hc).decimal
      rw [splitSign_text .minus (startsNumber_textOf hd)] at hcut ⊢
      rw [components_textOf hd] at hcut
      obtain ⟨rfl, rfl⟩ := Prod.mk.inj hcut
      exact .inr (.inr ⟨rfl, rfl, digits, edge⟩)
  · intro h
    rcases h with ⟨before, c, after, rfl, hle, hc⟩ | ⟨rfl, hle, hother⟩ | ⟨rfl, hneg, hascii, hedge⟩
    · have htext : s = g.text ++ (textOf before ++ (c.text ++ (textOf after ++ rest))) := by
        rw [hbody] at hs
        simpa [textOf] using hs
      rw [htext]
      exact .longRun g before c _ (fun x hx => hover x (by simp [hx])) (hover c (by simp))
        (by simpa using hle) hc
    · rw [List.append_nil] at hbody
      rw [hs, hbody]
      exact .script g cs hover hle hother
    · rw [List.append_nil] at hbody
      rw [hg, beq_iff_eq] at hneg
      subst hneg
      rw [hs, hbody]
      exact .least cs hascii hedge

/-- What the parser does with a text that is not a bare 0 and has no long run. -/
theorem parseGoDurationNs_cases {s : Str} {cs : List Component} {rest : Str}
    (hcut : components (splitSign s).2 = (cs, rest)) (hzero : (splitSign s).2 ≠ lit "0")
    (hlong : ¬ LongRun cs 0) :
    ((rest = [] → cs = [] ∨ INT64_MAX < total cs) ∧
      ∃ m, parseGoDurationNs s = .error (.goDurationError m)) ∨
    (rest = [] ∧ cs ≠ [] ∧ total cs ≤ INT64_MAX ∧
      parseGoDurationNs s = .ok (if (splitSign s).1 then -total cs else total cs)) := by
  obtain ⟨hbody, hover⟩ := components_spec (splitSign s).2
  have heq := parseGoDurationNs_eq s
  rw [hcut] at hbody hover heq
  rw [if_neg hzero] at heq
  by_cases hnil : (splitSign s).2 = []
  · rw [if_pos hnil] at heq
    refine .inl ⟨fun _ => .inl ?_, _, heq⟩
    rw [hnil, components, if_pos rfl] at hcut
    exact (Prod.mk.inj hcut).1.symm
  · rw [if_neg hnil] at heq
    rcases chargeAll_cases s hover (t := 0) (by decide) with ⟨h, -⟩ | ⟨-, h, hc⟩ | ⟨-, h, hc⟩
    · exact absurd h hlong
    · rw [hc] at heq
      exact .inl ⟨fun _ => .inr (by simpa using h), _, heq⟩
    · have hnn := total_nonneg hover
      simp only [hc, Int.zero_add] at heq h hnn
      by_cases hrest : rest = []
      · rw [if_pos hrest] at heq
        have hcs : cs ≠ [] := by
          intro h
          obtain rfl := h
          exact hnil (by simpa [textOf, hrest] using hbody)
        refine .inr ⟨hrest, hcs, h, ?_⟩
        rw [heq, if_pos]
        unfold INT64_MIN INT64_MAX at *
        split <;> omega
      · rw [if_neg hrest] at heq
        obtain ⟨m, hm⟩ := leftover_goDurationError s rest
        exact .inl ⟨fun h => absurd h hrest, m, by rw [heq, hm]⟩

theorem parseGoDurationNs_longRun {s : Str} {cs : List Component} {rest : Str}
    (hcut : components (splitSign s).2 = (cs, rest)) (hlong : LongRun cs 0) :
    parseGoDurationNs s = .error tooManyDigits := by
  have hover := (components_spec (splitSign s).2).2
  have hne : (splitSign s).2 ≠ lit "0" ∧ (splitSign s).2 ≠ [] := by
    obtain ⟨before, c, after, rfl, -⟩ := hlong
    refine ⟨?_, ?_⟩ <;> intro h <;> rw [h] at hcut
    · rw [components_zero] at hcut
      simp at hcut
    · rw [components, if_pos rfl] at hcut
      simp at hcut
  rw [parseGoDurationNs_eq, if_neg hne.1, if_neg hne.2]
  rw [hcut] at hover ⊢
  rcases chargeAll_cases s hover (t := 0) (by decide) with ⟨-, hc⟩ | ⟨h, -⟩ | ⟨h, -⟩
  · simp only [hc]
  · exact absurd hlong h
  · exact absurd hlong h

theorem meets_of_goDurationError {parse : Str → Except Exc Int} {s : Str} {m : Msg}
    (h : parse s = .error (.goDurationError m)) :
    Meets parse s ↔ ¬ ∃ n, IsGoDuration s n := by
  refine ⟨?_, ?_⟩
  · intro hmeets hex
    obtain ⟨n, hn⟩ := hex
    rw [← hmeets.1 n, h] at hn
    cases hn
  · intro hnone
    refine ⟨fun n => iff_of_false (by rw [h]; nofun) fun hn => hnone ⟨n, hn⟩, fun _ => ⟨m, h⟩⟩

theorem not_meets_of_error {parse : Str → Except Exc Int} {s : Str} {e : Exc}
    (h : parse s = .error e) (he : ∀ m, e ≠ .goDurationError m) : ¬ Meets parse s := by
  intro hmeets
  obtain ⟨hok, herr⟩ := hmeets
  by_cases hex : ∃ n, IsGoDuration s n
  · obtain ⟨n, hn⟩ := hex
    rw [← hok n, h] at hn
    cases hn
  · obtain ⟨m, hm⟩ := herr hex
    rw [h, Except.error.injEq] at hm
    exact he m hm

/-- A string is at most one Go duration. -/
theorem IsGoDuration.unique {s : Str} {n n' : Int} (h : IsGoDuration s n)
    (h' : IsGoDuration s n') : n = n' := by
  have hnil : components (splitSign s).2 = ([], lit "0") → (components (splitSign s).2).1 = [] :=
    fun h => by rw [h]
  rcases denotes_iff.mp h.1 with ⟨h0, rfl⟩ | ⟨-, ne, -, rfl⟩ <;>
    rcases denotes_iff.mp h'.1 with ⟨h0', rfl⟩ | ⟨-, ne', -, rfl⟩
  · rfl
  · exact absurd (hnil (by rw [h0, components_zero])) ne'
  · exact absurd (hnil (by rw [h0', components_zero])) ne
  · rfl

theorem meets_of_ok {parse : Str → Except Exc Int} {s : Str} {n : Int}
    (h : parse s = .ok n) : Meets parse s ↔ IsGoDuration s n := by
  refine ⟨?_, ?_⟩
  · intro hmeets
    exact (hmeets.1 n).mp h
  · intro hn
    refine ⟨?_, fun hnone => absurd ⟨n, hn⟩ hnone⟩
    intro n'
    rw [h, Except.ok.injEq]
    refine ⟨?_, ?_⟩
    · intro heq
      rw [← heq]
      exact hn
    · exact hn.unique

theorem parseGoDurationNs_zero {s : Str} (h : (splitSign s).2 = lit "0") :
    Meets parseGoDurationNs s ∧ ¬ Strays s := by
  have hparse : parseGoDurationNs s = .ok 0 := by rw [parseGoDurationNs_eq, if_pos h]
  have hcut : components (splitSign s).2 = ([], lit "0") := by rw [h, components_zero]
  refine ⟨(meets_of_ok hparse).mpr ⟨denotes_iff.mpr (.inl ⟨h, rfl⟩), by decide, by decide⟩, ?_⟩
  rw [strays_iff hcut]
  intro hstrays
  rcases hstrays with ⟨before, c, after, heq, -⟩ | ⟨hr, -⟩ | ⟨hr, -⟩
  · simp at heq
  · exact absurd hr (by decide)
  · exact absurd hr (by decide)

section Cut
variable {s : Str} {cs : List Component} {rest : Str}

theorem isGoDuration_iff (hcut : components (splitSign s).2 = (cs, rest))
    (hzero : (splitSign s).2 ≠ lit "0") {n : Int} :
    IsGoDuration s n ↔ rest = [] ∧ cs ≠ [] ∧ (∀ c ∈ cs, c.Over isAsciiDigit) ∧
      n = (if (splitSign s).1 then -total cs else total cs) ∧ INT64_MIN ≤ n ∧ n ≤ INT64_MAX := by
  rw [IsGoDuration, denotes_iff, hcut]
  simp only [hzero, false_and, false_or, and_assoc]

/-- Of the durations whose components the scanner does not add up within int64,
    Go has only its least. -/
theorem exists_isGoDuration_iff (hcut : components (splitSign s).2 = (cs, rest))
    (hzero : (splitSign s).2 ≠ lit "0") (hno : rest = [] → cs = [] ∨ INT64_MAX < total cs) :
    (∃ n, IsGoDuration s n) ↔ rest = [] ∧ (splitSign s).1 = true ∧
      (∀ c ∈ cs, c.Over isAsciiDigit) ∧ -total cs = INT64_MIN := by
  refine ⟨?_, ?_⟩
  · intro h
    obtain ⟨n, hn⟩ := h
    obtain ⟨hrest, hne, hascii, rfl, hlo, hhi⟩ := (isGoDuration_iff hcut hzero).mp hn
    have hbig := (hno hrest).resolve_left hne
    -- past int64 without the sign, and within it with the sign: one value is left
    cases hneg : (splitSign s).1 with
    | false => simp only [hneg, Bool.false_eq_true, if_false] at hhi; omega
    | true =>
      simp only [hneg, if_true] at hlo
      refine ⟨hrest, rfl, hascii, ?_⟩
      unfold INT64_MIN INT64_MAX at *
      omega
  · intro h
    obtain ⟨hrest, hneg, hascii, hedge⟩ := h
    have hne : cs ≠ [] := by intro h0; rw [h0] at hedge; exact absurd hedge (by decide)
    exact ⟨INT64_MIN, (isGoDuration_iff hcut hzero).mpr
      ⟨hrest, hne, hascii, by rw [if_pos hneg, hedge], by decide, by decide⟩⟩

end Cut

theorem components_single (g : Sign) {c : Component} (h : c.Over isDecimal) :
    components (splitSign (g.text ++ c.text)).2 = ([c], []) := by
  have digits : ∀ x ∈ [c], x.Over isDecimal := by simpa using h
  have htext : c.text = textOf [c] := by simp [textOf]
  rw [htext, splitSign_text g (startsNumber_textOf digits), components_textOf digits]

theorem longRun_single {c : Component} : LongRun [c] 0 ↔ ¬ c.number.Short := by
  rw [longRun_cons (by decide) (by simp)]
  refine ⟨?_, ?_⟩
  · intro h
    rcases h with h | ⟨-, before, x, after, heq, -⟩
    · exact h
    · simp at heq
  · exact .inl

theorem parseGoDurationNs_single (g : Sign) {c : Component} (h : c.Over isDecimal)
    (hshort : c.number.Short) (hle : c.nanos ≤ INT64_MAX) :
    parseGoDurationNs (g.text ++ c.text) = .ok (g.apply c.nanos) := by
  have hcut := components_single g h
  have hsign : (splitSign (g.text ++ c.text)).1 = (g == .minus) := by
    have hstart := h.startsNumber []
    rw [List.append_nil] at hstart
    rw [splitSign_text g hstart]
  have hzero : (splitSign (g.text ++ c.text)).2 ≠ lit "0" := fun h0 => by
    rw [h0, components_zero] at hcut
    cases hcut
  have hlong : ¬ LongRun [c] 0 := fun hl => longRun_single.mp hl hshort
  rcases parseGoDurationNs_cases hcut hzero hlong with ⟨hno, -⟩ | ⟨-, -, -, hok⟩
  · rcases hno rfl with hnil | hbig
    · cases hnil
    · rw [total_cons, total_nil, Int.add_zero] at hbig
      omega
  · rw [hok, hsign, Sign.apply_eq, total_cons, total_nil, Int.add_zero]

theorem parseGoDurationNs_denotes {s : Str} {w n : Int} (hw : Denotes s w)
    (hn : parseGoDurationNs s = .ok n) : n = w := by
  rcases denotes_iff.mp hw with ⟨h0, rfl⟩ | ⟨hrest, ne, -, rfl⟩
  · rw [parseGoDurationNs_eq, if_pos h0, Except.ok.injEq] at hn
    exact hn.symm
  · obtain ⟨cs, rest, hcut⟩ : ∃ cs rest, components (splitSign s).2 = (cs, rest) := ⟨_, _, rfl⟩
    have hzero : (splitSign s).2 ≠ lit "0" := fun h => by
      rw [h, components_zero] at ne
      exact ne rfl
    rw [hcut]
    by_cases hlong : LongRun cs 0
    · rw [parseGoDurationNs_longRun hcut hlong] at hn
      cases hn
    · rcases parseGoDurationNs_cases hcut hzero hlong with ⟨-, m, hm⟩ | ⟨-, -, -, hok⟩
      · rw [hm] at hn
        cases hn
      · rw [hok, Except.ok.injEq] at hn
        exact hn.symm

/-- The parser is Go's on a string exactly when the string is none of the three kinds. -/
theorem parseGoDurationNs_meets_iff (s : Str) : Meets parseGoDurationNs s ↔ ¬ Strays s := by
  by_cases hzero : (splitSign s).2 = lit "0"
  · obtain ⟨hm, hs⟩ := parseGoDurationNs_zero hzero
    exact iff_of_true hm hs
  obtain ⟨cs, rest, hcut⟩ : ∃ cs rest, components (splitSign s).2 = (cs, rest) := ⟨_, _, rfl⟩
  rw [strays_iff hcut]
  by_cases hlong : LongRun cs 0
  · have hparse := parseGoDurationNs_longRun hcut hlong
    exact iff_of_false (not_meets_of_error hparse tooManyDigits_ne) (by simp [hlong])
  simp only [hlong, false_or]
  rcases parseGoDurationNs_cases hcut hzero hlong with ⟨hno, m, hm⟩ | ⟨hrest, hne, hle, hok⟩
  · rw [meets_of_goDurationError hm, exists_isGoDuration_iff hcut hzero hno]
    have hother : ¬ (rest = [] ∧ total cs ≤ INT64_MAX ∧ ¬ ∀ c ∈ cs, c.Over isAsciiDigit) := by
      intro h
      obtain ⟨hrest, hle, hother⟩ := h
      rcases hno hrest with rfl | hbig
      · exact hother (by simp)
      · omega
    rw [or_iff_right hother]
  · have hnn : 0 ≤ total cs := by
      have hover := (components_spec (splitSign s).2).2
      rw [hcut] at hover
      exact total_nonneg hover
    have hleast : ¬ (-total cs = INT64_MIN) := by unfold INT64_MIN INT64_MAX at *; omega
    rw [meets_of_ok hok, isGoDuration_iff hcut hzero]
    have hrange : INT64_MIN ≤ (if (splitSign s).1 then -total cs else total cs) ∧
        (if (splitSign s).1 then -total cs else total cs) ≤ INT64_MAX := by
      unfold INT64_MIN INT64_MAX at *
      split <;> omega
    simp only [hrest, hne, hle, hrange, hleast, ne_eq, not_false_iff, true_and, and_true,
      and_false, or_false, not_not]

/-- More zeros than `int` reads, before a unit. -/
theorem not_meets_zeros {n : Nat} (h : intMaxStrDigits < n) :
    ¬ Meets parseGoDurationNs (List.replicate n 48 ++ lit "s") := by
  have digits : Component.Over isDecimal ⟨⟨List.replicate n 48, none⟩, lit "s"⟩ := by
    refine ⟨fun x hx => ?_, by simp, ?_, (by decide : lit "s" ∈ UNIT_NAMES)⟩
    · rw [(List.mem_replicate.mp hx).2]
      decide
    · have hn : n ≠ 0 := by omega
      simp [Number.isEmpty, hn]
  have hcut := components_single .none digits
  simp only [Sign.text, Component.text, Number.text, List.nil_append, List.append_nil] at hcut
  have hlong : LongRun [⟨⟨List.replicate n 48, none⟩, lit "s"⟩] 0 :=
    longRun_single.mpr fun hs => absurd hs.1 (by rw [List.length_replicate]; omega)
  exact not_meets_of_error (parseGoDurationNs_longRun hcut hlong) tooManyDigits_ne

/-- One string of each kind: an Arabic-Indic 3, then `s`; Go's least duration; 4301
    zeros, then `s`. -/
theorem parseGoDurationNs_not_go :
    ¬ Meets parseGoDurationNs [0x663, 115] ∧
    ¬ Meets parseGoDurationNs (lit "-9223372036854775808ns") ∧
    ¬ Meets parseGoDurationNs (List.replicate 4301 48 ++ lit "s") := by
  refine ⟨?_, ?_, not_meets_zeros (by decide)⟩
  · have digits : Component.Over isDecimal ⟨⟨[0x663], none⟩, lit "s"⟩ :=
      ⟨by decide, by decide, by decide, by decide⟩
    have hcut : components (splitSign [0x663, 115]).2 = ([⟨⟨[0x663], none⟩, lit "s"⟩], []) :=
      components_single .none digits
    rcases parseGoDurationNs_cases hcut (by decide) (by rw [longRun_single]; decide) with
      ⟨hno, -⟩ | ⟨-, -, -, hok⟩
    · exact absurd (hno rfl) (by decide)
    · rw [meets_of_ok hok, isGoDuration_iff hcut (by decide)]
      intro h
      obtain ⟨-, -, hascii, -⟩ := h
      have hdigit := (hascii _ List.mem_cons_self).whole 0x663 List.mem_cons_self
      exact absurd hdigit (by decide)
  · have digits : Component.Over isAsciiDigit ⟨⟨lit "9223372036854775808", none⟩, lit "ns"⟩ :=
      ⟨by decide, by decide, by decide, by decide⟩
    have hcut : components (splitSign (lit "-9223372036854775808ns")).2 =
        ([⟨⟨lit "9223372036854775808", none⟩, lit "ns"⟩], []) :=
      components_single .minus digits.decimal
    rcases parseGoDurationNs_cases hcut (by decide) (by rw [longRun_single]; decide) with
      ⟨hno, m, hm⟩ | ⟨-, -, hle, -⟩
    · rw [meets_of_goDurationError hm, exists_isGoDuration_iff hcut (by decide) hno, not_not]
      exact ⟨rfl, rfl, by simpa using digits, by decide⟩
    · exact absurd hle (by decide)

end goduration
end HookGuard
