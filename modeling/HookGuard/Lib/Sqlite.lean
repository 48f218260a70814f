import Mathlib.Data.List.Nodup
import HookGuard.Lib.Value

/- A connection of `sqlite3`, over any database `D`, and tables with a key.

   A statement is refused or changes the database (`Write`). `executemany` runs one
   statement per row and stops at the first that is refused (`run`). What the rows
   before it leave depends on the connection: one opened with an isolation level
   begins a transaction before them, which `rollback` undoes
   (`transaction_isolated`); one opened with `isolation_level=None` begins none, so
   that each row is written at once and `commit` and `rollback` do nothing
   (`transaction_autocommit`).

   `Keyed` is a table whose rows have a primary key, no key twice. `alter` is the
   upsert: it changes the row of a key, or adds one at the end. -/
namespace Sqlite

inductive Value where
  | null
  | integer (n : Int)
  | real (x : Py.PyFloat)
  | text (s : Py.Str)
  deriving DecidableEq

/-- What a text column holds. -/
def Value.asText : Value → Option Py.Str
  | .text s => some s
  | _ => none

/-! ## Statements and transactions -/

section Connection
variable {D E : Type}

/-- A statement with its parameters: refused, or a change of the database. -/
structure Write (D E : Type) where
  refusal : Option E
  effect : D → D

/-- Statements in turn, up to the first that is refused. -/
def run : List (Write D E) → D → D × Except E Unit
  | [], d => (d, .ok ())
  | w :: ws, d =>
    match w.refusal with
    | some e => (d, .error e)
    | none => run ws (w.effect d)

/-- A connection: the database it sees, the one to roll back to where a transaction is
    open, and whether `isolation_level` is `None`. -/
structure Connection (D : Type) where
  db : D
  saved : Option D := none
  autocommit : Bool

namespace Connection

/-- The implicit `BEGIN` before a statement that writes. -/
def begin (c : Connection D) : Connection D :=
  if c.autocommit || c.saved.isSome then c else { c with saved := some c.db }

def executemany (c : Connection D) (rows : List (Write D E)) : Connection D × Except E Unit :=
  let c := c.begin
  ({ c with db := (run rows c.db).1 }, (run rows c.db).2)

def commit (c : Connection D) : Connection D := { c with saved := none }

def rollback (c : Connection D) : Connection D := { c with db := c.saved.getD c.db, saved := none }

/-- `try: body; commit` `except: rollback; raise`. -/
def transaction (c : Connection D) (body : Connection D → Connection D × Except E Unit) :
    Connection D × Except E Unit :=
  match body c with
  | (c, .ok ()) => (c.commit, .ok ())
  | (c, .error e) => (c.rollback, .error e)

end Connection

/-- What the statements before the first refused one make of a database. -/
def applied (ws : List (Write D E)) (d : D) : D :=
  (ws.takeWhile fun w => w.refusal.isNone).foldl (fun d w => w.effect d) d

theorem run_fst (ws : List (Write D E)) (d : D) : (run ws d).1 = applied ws d := by
  unfold applied
  induction ws generalizing d with
  | nil => rfl
  | cons w ws ih =>
    cases hw : w.refusal with
    | some e => simp [run, hw]
    | none => simp [run, hw, ih]

theorem run_ok_iff (ws : List (Write D E)) (d : D) :
    (run ws d).2 = .ok () ↔ ∀ w ∈ ws, w.refusal = none := by
  induction ws generalizing d with
  | nil => simp [run]
  | cons w ws ih =>
    cases hw : w.refusal with
    | some e => simp [run, hw]
    | none => simp [run, hw, ih]

/-- With an isolation level, the batch is written whole or not at all. -/
theorem transaction_isolated {c : Connection D} (ha : c.autocommit = false) (hs : c.saved = none)
    (rows : List (Write D E)) :
    c.transaction (·.executemany rows) =
      ({ c with db := if ∀ w ∈ rows, w.refusal = none then applied rows c.db else c.db },
        (run rows c.db).2) := by
  have hbegin : c.begin = { c with saved := some c.db } := by simp [Connection.begin, ha, hs]
  have hok := run_ok_iff rows c.db
  simp only [Connection.transaction, Connection.executemany, hbegin]
  cases hr : (run rows c.db).2 with
  | ok u => simp [Connection.commit, if_pos (hok.mp hr), run_fst, hs]
  | error e =>
    have hnot : ¬ ∀ w ∈ rows, w.refusal = none := by
      rw [← hok, hr]
      intro h
      cases h
    simp [Connection.rollback, if_neg hnot, hs]

/-- Without one, the rows before the first refused one stay written. -/
theorem transaction_autocommit {c : Connection D} (ha : c.autocommit = true) (hs : c.saved = none)
    (rows : List (Write D E)) :
    c.transaction (·.executemany rows) =
      ({ c with db := applied rows c.db }, (run rows c.db).2) := by
  have hbegin : c.begin = c := by simp [Connection.begin, ha]
  simp only [Connection.transaction, Connection.executemany, hbegin, run_fst]
  cases (run rows c.db).2 with
  | ok u => simp [Connection.commit, hs]
  | error e => simp [Connection.rollback, hs]

/-! ## Batches -/

section Batch
variable {α : Type}

/-- The rows of a batch before the first that is refused. -/
def admitted (refusal : Nat → α → Option E) : List α → List α
  | [] => []
  | a :: rows =>
    match refusal 0 a with
    | some _ => []
    | none => a :: admitted (fun i => refusal (i + 1)) rows

/-- No row of the batch is refused. -/
def NoneRefused (refusal : Nat → α → Option E) (rows : List α) : Prop :=
  ∀ i (h : i < rows.length), refusal i rows[i] = none

/-- The batch has a first row, and it is refused. -/
def FirstRefused (refusal : Nat → α → Option E) (rows : List α) : Prop :=
  ∃ a rest, rows = a :: rest ∧ refusal 0 a ≠ none

variable {refusal : Nat → α → Option E}

theorem noneRefused_cons {a : α} {rows : List α} :
    NoneRefused refusal (a :: rows) ↔
      refusal 0 a = none ∧ NoneRefused (fun i => refusal (i + 1)) rows := by
  refine ⟨?_, ?_⟩
  · intro h
    exact ⟨h 0 (by simp), fun i hi => h (i + 1) (by simpa using hi)⟩
  · intro h i hi
    obtain ⟨h0, hrest⟩ := h
    cases i with
    | zero => exact h0
    | succ i => exact hrest i (by simpa using hi)

theorem admitted_eq_self_iff {rows : List α} :
    admitted refusal rows = rows ↔ NoneRefused refusal rows := by
  induction rows generalizing refusal with
  | nil =>
    refine iff_of_true rfl ?_
    intro i hi
    simp at hi
  | cons a rows ih =>
    rw [noneRefused_cons, admitted]
    cases h : refusal 0 a with
    | some e => simp
    | none => simp [ih]

theorem admitted_initial (refusal : Nat → α → Option E) (rows : List α) :
    admitted refusal rows <+: rows := by
  induction rows generalizing refusal with
  | nil => exact List.nil_prefix
  | cons a rows ih =>
    rw [admitted]
    cases refusal 0 a with
    | some e => exact List.nil_prefix
    | none =>
      show a :: admitted (fun i => refusal (i + 1)) rows <+: a :: rows
      apply (List.prefix_cons_inj a).mpr
      exact ih _

theorem admitted_not_refused {rows : List α} :
    ∀ a ∈ admitted refusal rows, ∃ i, refusal i a = none := by
  induction rows generalizing refusal with
  | nil =>
    intro a ha
    simp [admitted] at ha
  | cons a₀ rows ih =>
    intro a ha
    rw [admitted] at ha
    cases h : refusal 0 a₀ with
    | some e => simp [h] at ha
    | none =>
      simp only [h] at ha
      rcases List.mem_cons.mp ha with rfl | ha
      · exact ⟨0, h⟩
      · -- a later row: its index is one more here
        obtain ⟨i, hi⟩ := ih a ha
        exact ⟨i + 1, hi⟩

theorem admitted_eq_nil_iff {rows : List α} :
    admitted refusal rows = [] ↔ rows = [] ∨ FirstRefused refusal rows := by
  cases rows with
  | nil => simp [admitted]
  | cons a rows =>
    rw [admitted]
    cases h : refusal 0 a with
    | some e => simp [FirstRefused, h]
    | none => simp [FirstRefused, h]

/-- A batch applies the rows it admits. -/
theorem applied_mapIdx (effect : α → D → D) (refusal : Nat → α → Option E) (rows : List α)
    (d : D) :
    applied (rows.mapIdx fun i a => ⟨refusal i a, effect a⟩) d =
      (admitted refusal rows).foldl (fun d a => effect a d) d := by
  induction rows generalizing refusal d with
  | nil => rfl
  | cons a rows ih =>
    have ih := ih (fun i => refusal (i + 1)) (effect a d)
    unfold applied at ih ⊢
    rw [List.mapIdx_cons, admitted]
    cases h : refusal 0 a with
    | some e => simp
    | none => simpa [h] using ih

theorem run_mapIdx_ok_iff (effect : α → D → D) {rows : List α} {d : D} :
    (run (rows.mapIdx fun i a => ⟨refusal i a, effect a⟩) d).2 = .ok () ↔
      NoneRefused refusal rows := by
  rw [run_ok_iff]
  refine ⟨?_, ?_⟩
  · intro h i hi
    exact h _ (List.mem_mapIdx.mpr ⟨i, hi, rfl⟩)
  · intro h w hw
    obtain ⟨i, hi, rfl⟩ := List.mem_mapIdx.mp hw
    exact h i hi

end Batch

end Connection

/-! ## Tables with a primary key -/

/-- The row of a key changed, or one added for it at the end. -/
def alterRows {K V : Type} [DecidableEq K] (k : K) (f : Option V → V) : List (K × V) → List (K × V)
  | [] => [(k, f none)]
  | (k', v) :: rows => if k' = k then (k', f (some v)) :: rows else (k', v) :: alterRows k f rows

theorem lookup_of_not_mem {K V : Type} [BEq K] [LawfulBEq K] {k : K} {rows : List (K × V)}
    (h : k ∉ rows.map Prod.fst) : rows.lookup k = none := by
  rw [List.lookup_eq_none_iff]
  intro r hr
  simp only [bne_iff_ne, ne_eq]
  rintro rfl
  exact h (List.mem_map_of_mem hr)

theorem lookup_before {K V : Type} [BEq K] [LawfulBEq K] {rows : List (K × V)} {r : K × V}
    (h : ((rows ++ [r]).map Prod.fst).Nodup) : rows.lookup r.1 = none := by
  rw [List.map_append, List.nodup_append] at h
  apply lookup_of_not_mem
  intro hmem
  exact h.2.2 r.1 hmem r.1 (by simp) rfl

section Keyed
variable {K V : Type} [DecidableEq K]

theorem keys_alterRows (k : K) (f : Option V → V) (rows : List (K × V)) :
    (alterRows k f rows).map Prod.fst =
      if k ∈ rows.map Prod.fst then rows.map Prod.fst else rows.map Prod.fst ++ [k] := by
  induction rows with
  | nil => simp [alterRows]
  | cons row rows ih =>
    rw [alterRows]
    by_cases hk : row.1 = k
    · simp [hk]
    · simp only [hk, if_false, List.map_cons, ih, List.mem_cons, Ne.symm hk, false_or]
      split <;> simp

theorem lookup_alterRows (k : K) (f : Option V → V) (k' : K) (rows : List (K × V)) :
    (alterRows k f rows).lookup k' =
      if k' = k then some (f (rows.lookup k)) else rows.lookup k' := by
  induction rows with
  | nil => by_cases hk : k' = k <;> simp [alterRows, hk]
  | cons row rows ih =>
    obtain ⟨k₀, v⟩ := row
    rw [alterRows]
    by_cases h0 : k₀ = k
    · -- the row of the key is changed in place
      subst h0
      by_cases hk : k' = k₀
      · simp [hk]
      · simp [List.lookup_cons, hk, beq_eq_false_iff_ne.mpr hk]
    · have h0' : (k == k₀) = false := by simp [Ne.symm h0]
      by_cases hk0 : k' = k₀
      · subst hk0
        simp [h0]
      · simp [h0, List.lookup_cons, beq_eq_false_iff_ne.mpr hk0, ih, h0']

theorem rows_eq_of_lookup : ∀ {rows rows' : List (K × V)}, (rows.map Prod.fst).Nodup →
    rows.map Prod.fst = rows'.map Prod.fst → (∀ k, rows.lookup k = rows'.lookup k) → rows = rows'
  | [], [], _, _, _ => rfl
  | [], _ :: _, _, hkeys, _ => by simp at hkeys
  | _ :: _, [], _, hkeys, _ => by simp at hkeys
  | (k, v) :: rows, (k', v') :: rows', hnodup, hkeys, hget => by
    simp only [List.map_cons, List.cons.injEq, List.nodup_cons] at hkeys hnodup
    obtain ⟨rfl, hkeys⟩ := hkeys
    have hv : v = v' := by simpa using hget k
    subst hv
    have hrest : ∀ x, rows.lookup x = rows'.lookup x := by
      intro x
      by_cases hx : x = k
      · subst hx
        rw [lookup_of_not_mem hnodup.1, lookup_of_not_mem (hkeys ▸ hnodup.1)]
      · simpa [List.lookup_cons, beq_eq_false_iff_ne.mpr hx] using hget x
    rw [rows_eq_of_lookup hnodup.2 hkeys hrest]

theorem lookup_filter {p : K → V → Bool} {rows : List (K × V)} (h : (rows.map Prod.fst).Nodup)
    (k : K) : (rows.filter fun r => p r.1 r.2).lookup k = (rows.lookup k).filter (p k) := by
  induction rows with
  | nil => rfl
  | cons row rows ih =>
    obtain ⟨k', v⟩ := row
    rw [List.map_cons, List.nodup_cons] at h
    by_cases hk : k = k'
    · subst hk
      by_cases hp : p k v = true
      · simp [hp, Option.filter]
      · -- the row is gone, and there is no other of its key
        simp [hp, Option.filter, ih h.2, lookup_of_not_mem h.1]
    · by_cases hp : p k' v = true
      · simp [hp, List.lookup_cons, beq_eq_false_iff_ne.mpr hk, ih h.2]
      · simp [hp, List.lookup_cons, beq_eq_false_iff_ne.mpr hk, ih h.2]

/-- A table with a primary key. -/
structure Keyed (K V : Type) where
  rows : List (K × V)
  nodup : (rows.map Prod.fst).Nodup

namespace Keyed

def empty : Keyed K V := ⟨[], List.nodup_nil⟩

def keys (t : Keyed K V) : List K := t.rows.map Prod.fst

def get (t : Keyed K V) (k : K) : Option V := t.rows.lookup k

/-- Insert, or update on a conflict. -/
def alter (t : Keyed K V) (k : K) (f : Option V → V) : Keyed K V where
  rows := alterRows k f t.rows
  nodup := by
    rw [keys_alterRows]
    split
    · exact t.nodup
    · next hk => exact t.nodup.append (List.nodup_singleton k) (by simpa using hk)

/-- Delete the rows that do not satisfy `p`. -/
def filter (t : Keyed K V) (p : K → V → Bool) : Keyed K V where
  rows := t.rows.filter fun r => p r.1 r.2
  nodup := t.nodup.sublist (List.filter_sublist.map _)

/-- What the keys hold, written otherwise. -/
def map {W : Type} (f : V → W) (t : Keyed K V) : Keyed K W where
  rows := t.rows.map fun r => (r.1, f r.2)
  nodup := by
    rw [List.map_map]
    exact t.nodup

/-- Delete the row of a key. -/
def erase (t : Keyed K V) (k : K) : Keyed K V := t.filter fun k' _ => k' != k

@[simp] theorem get_alter (t : Keyed K V) (k : K) (f : Option V → V) (k' : K) :
    (t.alter k f).get k' = if k' = k then some (f (t.get k)) else t.get k' :=
  lookup_alterRows k f k' t.rows

@[simp] theorem get_filter (t : Keyed K V) (p : K → V → Bool) (k : K) :
    (t.filter p).get k = (t.get k).filter (p k) :=
  lookup_filter t.nodup k

@[simp] theorem get_erase (t : Keyed K V) (k k' : K) :
    (t.erase k).get k' = if k' = k then none else t.get k' := by
  rw [erase, get_filter]
  by_cases hk : k' = k
  · cases t.get k' <;> simp [hk]
  · cases t.get k' <;> simp [hk]

@[simp] theorem keys_alter (t : Keyed K V) (k : K) (f : Option V → V) :
    (t.alter k f).keys = if k ∈ t.keys then t.keys else t.keys ++ [k] :=
  keys_alterRows k f t.rows

theorem get_isSome_iff (t : Keyed K V) (k : K) : (t.get k).isSome = true ↔ k ∈ t.keys := by
  simp [get, keys, List.lookup_isSome_iff]

theorem map_alter {W : Type} (f : V → W) {t : Keyed K V} {k : K} {g : Option V → V}
    {g' : Option W → W} (h : g' ((t.get k).map f) = f (g (t.get k))) :
    (t.alter k g).map f = (t.map f).alter k g' := by
  have hrows : ∀ rows : List (K × V), g' ((rows.lookup k).map f) = f (g (rows.lookup k)) →
      (alterRows k g rows).map (fun r => (r.1, f r.2)) =
        alterRows k g' (rows.map fun r => (r.1, f r.2)) := by
    intro rows
    induction rows with
    | nil =>
      intro h
      exact congrArg (fun w => [(k, w)]) h.symm
    | cons row rows ih =>
      obtain ⟨k', v⟩ := row
      intro h
      by_cases hk : k' = k
      · subst hk
        simp only [List.lookup_cons_self, Option.map_some] at h
        simp [alterRows, h]
      · have hne : (k == k') = false := beq_false_of_ne (Ne.symm hk)
        simp only [List.lookup_cons, hne] at h
        simp [alterRows, hk, ih h]
  unfold map alter
  simp only [hrows t.rows h]

theorem ext_get {t t' : Keyed K V} (hkeys : t.keys = t'.keys) (hget : ∀ k, t.get k = t'.get k) :
    t = t' := by
  have hrows : t.rows = t'.rows := rows_eq_of_lookup t.nodup hkeys hget
  cases t
  cases t'
  simpa using hrows

/-! ## Counters -/

/-- Increments added to the counts of their keys, in turn. -/
def bump (t : Keyed K Int) (ds : List (K × Int)) : Keyed K Int :=
  ds.foldl (fun t d => t.alter d.1 (fun n => n.getD 0 + d.2)) t

/-- What the increments of a key come to. -/
def increment (ds : List (K × Int)) (k : K) : Int :=
  ((ds.filter fun d => d.1 = k).map Prod.snd).sum

@[simp] theorem increment_nil (k : K) : increment ([] : List (K × Int)) k = 0 := rfl

theorem increment_cons (d : K × Int) (ds : List (K × Int)) (k : K) :
    increment (d :: ds) k = (if d.1 = k then d.2 else 0) + increment ds k := by
  unfold increment
  by_cases hd : d.1 = k <;> simp [hd]

def count (t : Keyed K Int) (k : K) : Int := (t.get k).getD 0

theorem count_alter (t : Keyed K Int) (k : K) (n : Int) (k' : K) :
    (t.alter k fun old => old.getD 0 + n).count k' = t.count k' + if k = k' then n else 0 := by
  unfold count
  rw [get_alter]
  by_cases hk : k = k'
  · rw [if_pos hk.symm, if_pos hk, hk]
    rfl
  · rw [if_neg (Ne.symm hk), if_neg hk, Int.add_zero]

theorem count_bump (ds : List (K × Int)) (t : Keyed K Int) (k : K) :
    (t.bump ds).count k = t.count k + increment ds k := by
  induction ds generalizing t with
  | nil => simp [bump]
  | cons d ds ih =>
    calc (t.bump (d :: ds)).count k
        = (t.alter d.1 fun old => old.getD 0 + d.2).count k + increment ds k := ih _
      _ = t.count k + (if d.1 = k then d.2 else 0) + increment ds k := by rw [count_alter]
      _ = t.count k + increment (d :: ds) k := by rw [increment_cons, Int.add_assoc]

theorem length_keys_bump (ds : List (K × Int)) (t : Keyed K Int) :
    t.keys.length ≤ (t.bump ds).keys.length := by
  induction ds generalizing t with
  | nil => exact Nat.le_refl _
  | cons d ds ih =>
    apply Nat.le_trans ?_ (ih (t.alter d.1 fun n => n.getD 0 + d.2))
    rw [keys_alter]
    split
    · exact Nat.le_refl _
    · simp

theorem keys_bump (ds : List (K × Int)) (t : Keyed K Int) :
    (t.bump ds).keys = t.keys ↔ ∀ d ∈ ds, d.1 ∈ t.keys := by
  induction ds generalizing t with
  | nil => simp [bump]
  | cons d ds ih =>
    have hkeys := keys_alter t d.1 fun n : Option Int => n.getD 0 + d.2
    show ((t.alter d.1 fun n => n.getD 0 + d.2).bump ds).keys = t.keys ↔ _
    rw [List.forall_mem_cons]
    by_cases hd : d.1 ∈ t.keys
    · rw [if_pos hd] at hkeys
      rw [← hkeys, ih, hkeys]
      simp [hd]
    · -- a key that was not there makes the table longer
      rw [if_neg hd] at hkeys
      refine iff_of_false ?_ (by simp [hd])
      intro heq
      have hlen := length_keys_bump ds (t.alter d.1 fun n => n.getD 0 + d.2)
      rw [heq, hkeys] at hlen
      simp at hlen

theorem get_eq (t : Keyed K Int) (k : K) :
    t.get k = if k ∈ t.keys then some (t.count k) else none := by
  simp only [← get_isSome_iff, count]
  cases t.get k <;> simp

theorem increment_of_not_mem {ds : List (K × Int)} {k : K} (h : ∀ d ∈ ds, d.1 ≠ k) :
    increment ds k = 0 := by
  rw [increment, List.filter_eq_nil_iff.mpr (by simpa using h)]
  rfl

/-- Increments change nothing exactly when every key is there and comes to zero. -/
theorem bump_eq_self_iff (ds : List (K × Int)) (t : Keyed K Int) :
    t.bump ds = t ↔ ∀ d ∈ ds, d.1 ∈ t.keys ∧ increment ds d.1 = 0 := by
  refine ⟨?_, ?_⟩
  · intro heq d hd
    refine ⟨(keys_bump ds t).mp (by rw [heq]) d hd, ?_⟩
    have hcount := count_bump ds t d.1
    rw [heq] at hcount
    omega
  · intro h
    have hkeys := (keys_bump ds t).mpr fun d hd => (h d hd).1
    refine ext_get hkeys fun k => ?_
    have hzero : increment ds k = 0 := by
      by_cases hk : ∃ d ∈ ds, d.1 = k
      · obtain ⟨d, hd, rfl⟩ := hk
        exact (h d hd).2
      · exact increment_of_not_mem fun d hd hdk => hk ⟨d, hd, hdk⟩
    rw [get_eq, get_eq, hkeys, count_bump, hzero, Int.add_zero]

end Keyed
end Keyed

end Sqlite
