import HookGuard.Lib.Sqlite

/- Sums over the rows of a table: `SUM(n)` under a condition on the key (`sumWhere`),
   and `GROUP BY` an expression of the key (`groupSum`), whose rows have the sums of
   the table's (`sumWhere_groupSum`). What an upsert adds to a sum is what is added
   to the row (`sumWhere_bump`). -/
namespace Sqlite

section Aggregate
variable {K L : Type}

/-- `SELECT SUM(n)` of the rows whose key satisfies `p`. -/
def sumWhere (p : K → Bool) (rows : List (K × Int)) : Int :=
  ((rows.filter fun r => p r.1).map Prod.snd).sum

@[simp] theorem sumWhere_nil (p : K → Bool) : sumWhere p [] = 0 := rfl

theorem sumWhere_cons (p : K → Bool) (r : K × Int) (rows : List (K × Int)) :
    sumWhere p (r :: rows) = (if p r.1 then r.2 else 0) + sumWhere p rows := by
  unfold sumWhere
  by_cases hp : p r.1 <;> simp [hp]

theorem sumWhere_map (p : L → Bool) (key : K → L) (rows : List (K × Int)) :
    sumWhere p (rows.map fun r => (key r.1, r.2)) = sumWhere (fun k => p (key k)) rows := by
  induction rows with
  | nil => rfl
  | cons r rows ih => rw [List.map_cons, sumWhere_cons, sumWhere_cons, ih]

theorem sumWhere_filter (p q : K → Bool) (rows : List (K × Int)) :
    sumWhere p (rows.filter fun r => q r.1) = sumWhere (fun k => q k && p k) rows := by
  unfold sumWhere
  rw [List.filter_filter]
  simp only [Bool.and_comm]

theorem sumWhere_congr {p q : K → Bool} {rows : List (K × Int)} (h : ∀ k, p k = q k) :
    sumWhere p rows = sumWhere q rows := by
  rw [funext h]

section Upsert
variable [DecidableEq K]

theorem sumWhere_alterRows (p : K → Bool) (k : K) (n : Int) (rows : List (K × Int)) :
    sumWhere p (alterRows k (fun old => old.getD 0 + n) rows) =
      sumWhere p rows + if p k then n else 0 := by
  induction rows with
  | nil => simp [alterRows, sumWhere_cons]
  | cons r rows ih =>
    obtain ⟨k₀, m⟩ := r
    rw [alterRows]
    by_cases hk : k₀ = k
    · subst hk
      simp only [if_true, sumWhere_cons, Option.getD_some]
      split <;> omega
    · simp only [hk, if_false, sumWhere_cons, ih]
      omega

theorem sumWhere_bump (p : K → Bool) (ds : List (K × Int)) (t : Keyed K Int) :
    sumWhere p (t.bump ds).rows = sumWhere p t.rows + sumWhere p ds := by
  induction ds generalizing t with
  | nil => simp [Keyed.bump]
  | cons d ds ih =>
    have hfirst : sumWhere p (t.alter d.1 fun old => old.getD 0 + d.2).rows =
        sumWhere p t.rows + if p d.1 then d.2 else 0 := sumWhere_alterRows p d.1 d.2 t.rows
    calc sumWhere p (t.bump (d :: ds)).rows
        = sumWhere p (t.alter d.1 fun old => old.getD 0 + d.2).rows + sumWhere p ds := ih _
      _ = sumWhere p t.rows + sumWhere p (d :: ds) := by
          rw [hfirst, sumWhere_cons, Int.add_assoc]

theorem sumWhere_key [BEq K] [LawfulBEq K] {rows : List (K × Int)}
    (h : (rows.map Prod.fst).Nodup) (k : K) :
    sumWhere (fun k' => decide (k' = k)) rows = (rows.lookup k).getD 0 := by
  induction rows with
  | nil => rfl
  | cons r rows ih =>
    obtain ⟨k₀, n⟩ := r
    rw [List.map_cons, List.nodup_cons] at h
    rw [sumWhere_cons, ih h.2]
    by_cases hk : k₀ = k
    · subst hk
      simp [lookup_of_not_mem h.1]
    · simp [hk, List.lookup_cons, beq_eq_false_iff_ne.mpr (Ne.symm hk)]

theorem sum_alterRows {V : Type} (g : V → Int) {default : V} (hdefault : g default = 0) (k : K)
    (f : Option V → V) (rows : List (K × V)) :
    ((alterRows k f rows).map fun r => g r.2).sum =
      (rows.map fun r => g r.2).sum +
        (g (f (rows.lookup k)) - g ((rows.lookup k).getD default)) := by
  induction rows with
  | nil => simp [alterRows, hdefault]
  | cons r rows ih =>
    obtain ⟨k₀, v⟩ := r
    rw [alterRows]
    by_cases hk : k₀ = k
    · subst hk
      simp only [if_true, List.map_cons, List.sum_cons, List.lookup_cons, beq_self_eq_true,
        Option.getD_some]
      omega
    · simp only [hk, if_false, List.map_cons, List.sum_cons, ih, List.lookup_cons,
        beq_eq_false_iff_ne.mpr (Ne.symm hk)]
      omega

end Upsert

section GroupBy
variable [DecidableEq L]

/-- `SELECT key, SUM(n) ... GROUP BY key`; the order of the groups is left open by SQL. -/
def groupSum (key : K → L) (rows : List (K × Int)) : List (L × Int) :=
  (Keyed.empty.bump (rows.map fun r => (key r.1, r.2))).rows

theorem groupSum_nodup (key : K → L) (rows : List (K × Int)) :
    ((groupSum key rows).map Prod.fst).Nodup :=
  (Keyed.empty.bump _).nodup

/-- The groups have the sums of the rows. -/
theorem sumWhere_groupSum (p : L → Bool) (key : K → L) (rows : List (K × Int)) :
    sumWhere p (groupSum key rows) = sumWhere (fun k => p (key k)) rows := by
  rw [groupSum, sumWhere_bump, sumWhere_map]
  exact Int.zero_add _

end GroupBy
end Aggregate
end Sqlite
