import HookGuard.Core.Events
import HookGuard.Lib.Isoformat

/- Timestamps on the wire, as the two implementations write them. Go's `time.RFC3339Nano`
   drops the zeros at the end of a fraction and the fraction where it is zero; `isoformat`,
   which `format_timestamp` takes, writes six digits or none. So the texts are the same
   where the last digit of the microseconds is not zero, or all of them are
   (`sameOnWire_iff`).

   Either reads as the same instant in Python (`parseTimestamp_formatTimestamp`,
   `parseTimestamp_rfc3339Nano`). -/
namespace HookGuard
open Py

/-- `.999999999` in a Go layout: nine digits, without the zeros at their end. -/
def goFraction (nanosecond : Nat) : Str :=
  if trimmed (padded 9 nanosecond) = [] then [] else 46 :: trimmed (padded 9 nanosecond)

/-- `t.UTC().Format(time.RFC3339Nano)`, of a time to the microsecond. -/
def rfc3339Nano (d : Datetime) : Str :=
  (Fields.ofDatetime d).clock ++ goFraction ((Fields.ofDatetime d).microsecond * 1000) ++ lit "Z"

/-- `datetime.fromisoformat`, with what it makes of the texts that are not of RFC 3339. -/
def fromisoformat (other : Str → Except Exc ReadDatetime) (s : Str) : Except Exc ReadDatetime :=
  match readRfc3339 s with
  | some d => .ok d
  | none => other s

/-! ## The two fractions -/

theorem trimmed_nanoseconds (microsecond : Nat) :
    trimmed (padded 9 (microsecond * 1000)) = trimmed (padded 6 microsecond) := by
  have hthousand : microsecond * 1000 = microsecond * 10 * 10 * 10 := by omega
  rw [hthousand, padded_mul_ten, padded_mul_ten, padded_mul_ten, trimmed_concat_zero,
    trimmed_concat_zero, trimmed_concat_zero]

theorem goFraction_microseconds {microsecond : Nat} (h : microsecond < 10 ^ 6) :
    goFraction (microsecond * 1000) =
      if microsecond = 0 then [] else 46 :: trimmed (padded 6 microsecond) := by
  rw [goFraction, trimmed_nanoseconds]
  simp only [trimmed_padded_eq_nil_iff h]

/-- The two fractions are the same, unless zeros are dropped from one that is not zero. -/
theorem goFraction_eq_isoFraction_iff {microsecond : Nat} (h : microsecond < 10 ^ 6) :
    goFraction (microsecond * 1000) = isoFraction microsecond ↔
      microsecond = 0 ∨ microsecond % 10 ≠ 0 := by
  rw [goFraction_microseconds h, isoFraction]
  by_cases hzero : microsecond = 0
  · rw [if_pos hzero, if_pos hzero]
    exact iff_of_true rfl (.inl hzero)
  · rw [if_neg hzero, if_neg hzero, List.cons_inj_right, trimmed_padded_eq_self_iff,
      or_iff_right hzero]

theorem readFraction_go {microsecond : Nat} (h : microsecond < 10 ^ 6) :
    readFraction (goFraction (microsecond * 1000) ++ lit "Z") = some (microsecond, lit "Z") := by
  rw [goFraction_microseconds h]
  by_cases hzero : microsecond = 0
  · rw [if_pos hzero, hzero]
    rfl
  · rw [if_neg hzero]
    obtain ⟨zeros, hzeros⟩ := trimmed_append (padded 6 microsecond)
    have hne : trimmed (padded 6 microsecond) ≠ [] := by
      rwa [ne_eq, trimmed_padded_eq_nil_iff h]
    exact readFraction_prefix h hne hzeros

/-! ## Timestamps -/

section Timestamps
variable {value : ReadDatetime} {d : Datetime}

theorem utc_ofUtc (d : Datetime) : utc (.ofUtc d) = some d := by
  simp [utc, ReadDatetime.ofUtc, Datetime.ofMicroseconds, d.lower, d.upper]

theorem formatTimestamp_eq (h : utc value = some d) :
    formatTimestamp Datetime.isoformat value = .ok ((Fields.ofDatetime d).clock ++
      isoFraction (Fields.ofDatetime d).microsecond ++ lit "Z") := by
  have hdigit : ∀ width n, 43 ∉ padded width n := by
    intro width n hmem
    exact absurd (padded_digits width n 43 hmem) (by decide)
  have hfraction : ∀ n, 43 ∉ isoFraction n := by
    intro n
    unfold isoFraction
    split
    · simp
    · simp [hdigit]
  have hplus : 43 ∉ (Fields.ofDatetime d).clock ++
      isoFraction (Fields.ofDatetime d).microsecond := by
    simp [Fields.clock, Date.isoformat, hdigit, hfraction]
  rw [formatTimestamp, h]
  exact congrArg Except.ok (replace_suffix hplus _ _)

variable (other : Str → Except Exc ReadDatetime)

theorem fromisoformat_fields {fraction : Str} (h : readFraction (fraction ++ lit "Z") =
      some ((Fields.ofDatetime d).microsecond, lit "Z")) :
    parseTimestamp (fromisoformat other)
        (.str ((Fields.ofDatetime d).clock ++ fraction ++ lit "Z")) = .ok (.ofUtc d) := by
  rw [parseTimestamp, fromisoformat, readRfc3339_fields (Fields.ofDatetime_inRange d)
    (Fields.ofDatetime_datetime d) h]

/-- What `format_timestamp` writes, `parse_timestamp` reads as the same instant. -/
theorem parseTimestamp_formatTimestamp (h : utc value = some d) :
    ∃ text r, formatTimestamp Datetime.isoformat value = .ok text ∧
      parseTimestamp (fromisoformat other) (.str text) = .ok r ∧ utc r = some d :=
  ⟨_, _, formatTimestamp_eq h,
    fromisoformat_fields other (readFraction_iso (Fields.ofDatetime_inRange d).microsecond),
    utc_ofUtc d⟩

theorem parseTimestamp_rfc3339Nano (d : Datetime) :
    parseTimestamp (fromisoformat other) (.str (rfc3339Nano d)) = .ok (.ofUtc d) :=
  fromisoformat_fields other (readFraction_go (Fields.ofDatetime_inRange d).microsecond)

/-- What the wire contract says of a time that denotes the instant `d`: `format_timestamp`
    writes what Go writes, `parse_timestamp` reads that instant off it, and so the events of
    that time have Go's text for their `ts`. -/
structure SameOnWire (value : ReadDatetime) (d : Datetime) : Prop where
  text : formatTimestamp Datetime.isoformat value = .ok (rfc3339Nano d)
  instant : ∃ text r, formatTimestamp Datetime.isoformat value = .ok text ∧
    parseTimestamp (fromisoformat other) (.str text) = .ok r ∧ utc r = some d
  events : ∀ event : VerifyEvent, event.timestamp = value →
    toJsonDict Datetime.isoformat event = .ok (event.jsonDict (rfc3339Nano d))

/-- It holds of the instants whose microseconds within the second are zero, or do not end
    in a zero, and of no others. -/
theorem sameOnWire_iff (h : utc value = some d) :
    SameOnWire other value d ↔ d.us % 10 ^ 6 = 0 ∨ d.us % 10 ≠ 0 := by
  have hmicrosecond := Fields.microsecond_eq d
  have hcondition : (d.us % 10 ^ 6 = 0 ∨ d.us % 10 ≠ 0) ↔
      goFraction ((Fields.ofDatetime d).microsecond * 1000) =
        isoFraction (Fields.ofDatetime d).microsecond := by
    rw [goFraction_eq_isoFraction_iff (Fields.ofDatetime_inRange d).microsecond]
    omega
  rw [hcondition]
  constructor
  · intro hsame
    have htext := hsame.text
    rw [formatTimestamp_eq h, rfc3339Nano, Except.ok.injEq, List.append_left_inj,
      List.append_right_inj] at htext
    exact htext.symm
  · intro hfraction
    have htext : formatTimestamp Datetime.isoformat value = .ok (rfc3339Nano d) := by
      rw [formatTimestamp_eq h, rfc3339Nano, hfraction]
    refine ⟨htext, parseTimestamp_formatTimestamp other h, ?_⟩
    rintro event rfl
    rw [toJsonDict, htext]
    rfl

end Timestamps

/-! ## A tenth of a second -/

/-- A tenth of a second after the epoch. -/
def tenth : Datetime := ⟨100000, by decide, by decide⟩

/-- A microsecond after the epoch, and how a clock half past five hours ahead of UTC reads
    then. -/
def microsecondOne : Datetime := ⟨1, by decide, by decide⟩

theorem india_within : ∀ o ∈ (some 19800000000 : Option Int), |o| < 86400000000 := by decide

def microsecondOneInIndia : ReadDatetime :=
  ⟨⟨19800000001, by decide, by decide⟩, some 19800000000, india_within⟩

theorem sameOnWire_microsecond :
    SameOnWire (fun _ => .error .overflowError) microsecondOneInIndia microsecondOne :=
  (sameOnWire_iff _ rfl).mpr (.inr (by decide))

/-- Python writes all six digits of it, and Go the one. -/
theorem tenth_differs : utc (.ofUtc tenth) = some tenth ∧
    formatTimestamp Datetime.isoformat (.ofUtc tenth) =
      .ok (lit "1970-01-01T00:00:00.100000Z") ∧
    rfc3339Nano tenth = lit "1970-01-01T00:00:00.1Z" ∧
    ∀ other, ¬ SameOnWire other (.ofUtc tenth) tenth := by
  have hpython : formatTimestamp Datetime.isoformat (.ofUtc tenth) =
      .ok (lit "1970-01-01T00:00:00.100000Z") := by rfl
  have hgo : rfc3339Nano tenth = lit "1970-01-01T00:00:00.1Z" := by decide +kernel
  refine ⟨utc_ofUtc tenth, hpython, hgo, ?_⟩
  intro other hsame
  have htext := hsame.text
  rw [hpython, hgo, Except.ok.injEq] at htext
  exact absurd htext (by decide)

end HookGuard
