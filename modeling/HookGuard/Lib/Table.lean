import Mathlib.Data.List.Basic

/- Tables with an INTEGER PRIMARY KEY, over any type `R` of rows. The id of a new row is
   one past the greatest in the table, 1 in an empty one, so that the rows stand in the
   order of their ids; and an id is given out again once the rows from it on are deleted.

   `get_insert`, `get_update` and `get_delete` say what each statement leaves under an id, and
   `Unique` is a UNIQUE constraint, kept by what it lets through. -/
namespace Sqlite

theorem le_foldl_max (ids : List Nat) (start : Nat) :
    start ≤ ids.foldl max start ∧ ∀ n ∈ ids, n ≤ ids.foldl max start := by
  induction ids generalizing start with
  | nil => simp
  | cons n ids ih =>
    obtain ⟨hstart, hall⟩ := ih (max start n)
    rw [List.foldl_cons, List.forall_mem_cons]
    refine ⟨?_, ?_, hall⟩
    · exact Nat.le_trans (Nat.le_max_left start n) hstart
    · exact Nat.le_trans (Nat.le_max_right start n) hstart

/-- Rows under their ids. -/
structure Table (R : Type) where
  rows : List (Nat × R)
  increasing : (rows.map Prod.fst).Pairwise (· < ·)
  positive : ∀ r ∈ rows, 0 < r.1

namespace Table
variable {R : Type}

def empty : Table R := ⟨[], .nil, by simp⟩

/-- The id of the next row. -/
def nextId (t : Table R) : Nat := (t.rows.map Prod.fst).foldl max 0 + 1

theorem lt_nextId {t : Table R} {r : Nat × R} (h : r ∈ t.rows) : r.1 < t.nextId :=
  Nat.lt_succ_of_le ((le_foldl_max _ 0).2 r.1 (List.mem_map_of_mem h))

/-- `INSERT`. -/
def insert (t : Table R) (row : R) : Table R where
  rows := t.rows ++ [(t.nextId, row)]
  increasing := by
    rw [List.map_append, List.pairwise_append]
    refine ⟨t.increasing, by simp, ?_⟩
    intro n hn n' hn'
    obtain ⟨r, hr, rfl⟩ := List.mem_map.mp hn
    rw [List.map_singleton, List.mem_singleton] at hn'
    rw [hn']
    exact lt_nextId hr
  positive := by
    intro r hr
    rcases List.mem_append.mp hr with hr | hr
    · exact t.positive r hr
    · rw [List.mem_singleton.mp hr]
      exact Nat.succ_pos _

/-- `UPDATE ... WHERE p`. -/
def update (t : Table R) (p : Nat → R → Bool) (f : R → R) : Table R where
  rows := t.rows.map fun r => if p r.1 r.2 then (r.1, f r.2) else r
  increasing := by
    have hids : (t.rows.map fun r => if p r.1 r.2 then (r.1, f r.2) else r).map Prod.fst =
        t.rows.map Prod.fst := by
      rw [List.map_map]
      apply List.map_congr_left
      intro r _
      simp only [Function.comp_apply]
      split <;> rfl
    rw [hids]
    exact t.increasing
  positive := by
    intro r hr
    obtain ⟨r', hr', rfl⟩ := List.mem_map.mp hr
    split
    · exact t.positive r' hr'
    · exact t.positive r' hr'

/-- `DELETE ... WHERE p`. -/
def delete (t : Table R) (p : Nat → R → Bool) : Table R where
  rows := t.rows.filter fun r => !p r.1 r.2
  increasing := t.increasing.sublist (List.filter_sublist.map _)
  positive r hr := t.positive r (List.mem_of_mem_filter hr)

/-- The row of an id. -/
def get (t : Table R) (id : Nat) : Option R := t.rows.lookup id

/-- The first row that satisfies `p`, with its id. -/
def find (t : Table R) (p : R → Bool) : Option (Nat × R) := t.rows.find? fun r => p r.2

theorem lookup_eq_some {rows : List (Nat × R)} (h : (rows.map Prod.fst).Pairwise (· < ·))
    {id : Nat} {row : R} : rows.lookup id = some row ↔ (id, row) ∈ rows := by
  induction rows with
  | nil => simp
  | cons r rows ih =>
    obtain ⟨id', row'⟩ := r
    rw [List.map_cons, List.pairwise_cons] at h
    rw [List.lookup_cons, List.mem_cons, ← ih h.2]
    by_cases hid : id = id'
    · -- the ids after it are greater
      subst hid
      have hnone : rows.lookup id ≠ some row := by
        rw [ne_eq, ih h.2]
        intro hmem
        exact absurd (h.1 id (List.mem_map.mpr ⟨_, hmem, rfl⟩)) (Nat.lt_irrefl id)
      simp [hnone, eq_comm]
    · simp [beq_eq_false_iff_ne.mpr hid, hid]

theorem get_eq_some {t : Table R} {id : Nat} {row : R} :
    t.get id = some row ↔ (id, row) ∈ t.rows :=
  lookup_eq_some t.increasing

theorem get_eq_none {t : Table R} {id : Nat} :
    t.get id = none ↔ ∀ r ∈ t.rows, r.1 ≠ id := by
  refine ⟨?_, ?_⟩
  · rintro h r hr rfl
    rw [get_eq_some.mpr hr] at h
    cases h
  · intro h
    cases hget : t.get id with
    | none => rfl
    | some row => exact absurd rfl (h _ (get_eq_some.mp hget))

theorem rows_ne_nil {t : Table R} : t.rows ≠ [] ↔ ∃ id row, t.get id = some row := by
  refine ⟨?_, ?_⟩
  · intro h
    obtain ⟨⟨id, row⟩, hrow⟩ := List.exists_mem_of_ne_nil _ h
    exact ⟨id, row, get_eq_some.mpr hrow⟩
  · rintro ⟨id, row, h⟩ hnil
    have hmem := get_eq_some.mp h
    rw [hnil] at hmem
    cases hmem

theorem get_nextId (t : Table R) : t.get t.nextId = none := by
  rw [get_eq_none]
  intro r hr
  exact Nat.ne_of_lt (lt_nextId hr)

theorem get_insert (t : Table R) (row : R) (id : Nat) :
    (t.insert row).get id = if id = t.nextId then some row else t.get id := by
  by_cases hid : id = t.nextId
  · subst hid
    rw [if_pos rfl, get_eq_some]
    exact List.mem_append_right _ (List.mem_singleton_self _)
  · rw [if_neg hid]
    apply Option.ext
    intro row'
    rw [get_eq_some, get_eq_some]
    show (id, row') ∈ t.rows ++ [(t.nextId, row)] ↔ _
    simp [hid]

theorem get_update (t : Table R) (p : Nat → R → Bool) (f : R → R) (id : Nat) :
    (t.update p f).get id = (t.get id).map fun row => if p id row then f row else row := by
  show (t.rows.map fun r => if p r.1 r.2 then (r.1, f r.2) else r).lookup id =
    (t.rows.lookup id).map _
  induction t.rows with
  | nil => rfl
  | cons r rows ih =>
    obtain ⟨id', row⟩ := r
    simp only [List.map_cons, List.lookup_cons]
    by_cases hid : id = id'
    · subst hid
      by_cases hp : p id row = true
      · simp [hp]
      · simp [hp]
    · have hne : (id == id') = false := beq_eq_false_iff_ne.mpr hid
      rw [hne]
      split
      · rw [List.lookup_cons, hne]
        exact ih
      · rw [List.lookup_cons, hne]
        exact ih

theorem get_delete (t : Table R) (p : Nat → R → Bool) (id : Nat) :
    (t.delete p).get id = (t.get id).filter fun row => !p id row := by
  apply Option.ext
  intro row
  rw [Option.filter_eq_some_iff, get_eq_some, get_eq_some]
  show (id, row) ∈ t.rows.filter (fun r => !p r.1 r.2) ↔ _
  rw [List.mem_filter]

theorem find_eq_some {t : Table R} {p : R → Bool} {id : Nat} {row : R}
    (h : t.find p = some (id, row)) : t.get id = some row ∧ p row = true :=
  ⟨get_eq_some.mpr (List.mem_of_find?_eq_some h),
    List.find?_some (p := fun r : Nat × R => p r.2) h⟩

theorem find_eq_none {t : Table R} {p : R → Bool} :
    t.find p = none ↔ ∀ id row, t.get id = some row → p row = false := by
  unfold find
  rw [List.find?_eq_none]
  refine ⟨?_, ?_⟩
  · intro h id row hrow
    exact eq_false_of_ne_true (h (id, row) (get_eq_some.mp hrow))
  · intro h r hr
    rw [h r.1 r.2 (get_eq_some.mpr hr)]
    exact Bool.false_ne_true

/-! ## UNIQUE -/

/-- No two rows are alike. -/
def Unique (t : Table R) (alike : R → R → Prop) : Prop :=
  ∀ id id' row row', t.get id = some row → t.get id' = some row' → alike row row' → id = id'

section Unique
variable {t : Table R} {alike : R → R → Prop}

theorem unique_empty : (empty : Table R).Unique alike := by
  intro id id' row row' h
  cases h

theorem Unique.insert (h : t.Unique alike) {row : R}
    (hnew : ∀ id old, t.get id = some old → ¬ alike old row ∧ ¬ alike row old) :
    (t.insert row).Unique alike := by
  intro id id' r r' hr hr' halike
  rw [get_insert] at hr hr'
  split at hr
  · next hid =>
    split at hr'
    · next hid' => exact hid.trans hid'.symm
    · obtain rfl := Option.some.inj hr
      exact absurd halike (hnew id' r' hr').2
  · split at hr'
    · obtain rfl := Option.some.inj hr'
      exact absurd halike (hnew id r hr).1
    · exact h id id' r r' hr hr' halike

theorem Unique.update (h : t.Unique alike) {p : Nat → R → Bool} {f : R → R}
    (hf : ∀ row row', (alike (f row) row' → alike row row') ∧
      (alike row' (f row) → alike row' row)) : (t.update p f).Unique alike := by
  intro id id' r r' hr hr' halike
  rw [get_update] at hr hr'
  obtain ⟨row, hrow, rfl⟩ := Option.map_eq_some_iff.mp hr
  obtain ⟨row', hrow', rfl⟩ := Option.map_eq_some_iff.mp hr'
  refine h id id' row row' hrow hrow' ?_
  split at halike
  · split at halike
    · exact (hf row' row).2 ((hf row (f row')).1 halike)
    · exact (hf row row').1 halike
  · split at halike
    · exact (hf row' row).2 halike
    · exact halike

theorem Unique.delete (h : t.Unique alike) (p : Nat → R → Bool) : (t.delete p).Unique alike := by
  intro id id' r r' hr hr' halike
  rw [get_delete] at hr hr'
  exact h id id' r r' (Option.filter_eq_some_iff.mp hr).1 (Option.filter_eq_some_iff.mp hr').1
    halike

/-- Of rows that are alike where they satisfy `p`, the first that does is the one. -/
theorem Unique.find_eq_some_iff (h : t.Unique alike) {p : R → Bool}
    (hp : ∀ row row', p row = true → p row' = true → alike row row') {id : Nat} {row : R} :
    t.find p = some (id, row) ↔ t.get id = some row ∧ p row = true := by
  refine ⟨find_eq_some, ?_⟩
  intro ⟨hrow, hprow⟩
  cases hfind : t.find p with
  | none =>
    rw [find_eq_none.mp hfind id row hrow] at hprow
    cases hprow
  | some found =>
    obtain ⟨id', row'⟩ := found
    obtain ⟨hrow', hprow'⟩ := find_eq_some hfind
    obtain rfl := h id' id row' row hrow' hrow (hp row' row hprow' hprow)
    rw [Option.some.inj (hrow'.symm.trans hrow)]

end Unique

end Table
end Sqlite
