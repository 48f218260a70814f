import Mathlib.Data.List.Basic
import Mathlib.Data.List.Perm.Subperm

/- A bounded `asyncio.Queue`, and the account of what passes through it.

   `putNowait` and `getNowait` fail with `QueueFull` and `QueueEmpty` (`none`); a size that
   is not positive is no bound. `putDropping` is the enqueue that never waits: put, and
   where the queue is full take the oldest out and put again.

   `Flow.Holds` is the account: what entered the queue is what was taken from it, what is
   in it and what was discarded, each once, and what was taken and what is in it are in
   the order they entered. Every operation keeps it. -/
namespace Asyncio

/-- A queue that holds no more than its size. -/
structure Queue (maxsize : Int) (α : Type) where
  items : List α
  bounded : 0 < maxsize → items.length ≤ maxsize

namespace Queue
variable {maxsize : Int} {α : Type}

def empty : Queue maxsize α where
  items := []
  bounded hpos := Int.le_of_lt hpos

/-- `full()`. -/
def full (q : Queue maxsize α) : Bool := 0 < maxsize && maxsize ≤ q.items.length

/-- `put_nowait`; `none` is `QueueFull`. -/
def putNowait (q : Queue maxsize α) (x : α) : Option (Queue maxsize α) :=
  if h : q.full = true then none
  else some
    { items := q.items ++ [x]
      bounded := by
        intro hpos
        simp only [full, Bool.and_eq_true, decide_eq_true_eq, not_and] at h
        have := h hpos
        simp only [List.length_append, List.length_singleton]
        omega }

/-- `get_nowait`; `none` is `QueueEmpty`. -/
def getNowait (q : Queue maxsize α) : Option (α × Queue maxsize α) :=
  match h : q.items with
  | [] => none
  | x :: rest => some (x,
      { items := rest
        bounded := by
          intro hpos
          have := q.bounded hpos
          rw [h, List.length_cons] at this
          omega })

/-- Put, dropping the oldest of a full queue: the queue after it, and what was dropped. -/
def putDropping (q : Queue maxsize α) (x : α) : Queue maxsize α × List α :=
  match q.putNowait x with
  | some q => (q, [])
  | none =>
    let (q, dropped) := match q.getNowait with
      | some (oldest, q) => (q, [oldest])
      | none => (q, [])
    match q.putNowait x with
    | some q => (q, dropped)
    | none => (q, dropped ++ [x])

/-- `get_nowait` until it fails. -/
def drain (q : Queue maxsize α) : List α × Queue maxsize α := (q.items, empty)

theorem getNowait_cases (q : Queue maxsize α) :
    (q.items = [] ∧ q.getNowait = none) ∨
    ∃ x q', q.items = x :: q'.items ∧ q.getNowait = some (x, q') := by
  unfold getNowait
  split
  · next h => exact .inl ⟨h, rfl⟩
  · next x rest h =>
    exact .inr ⟨x, _, h, rfl⟩

theorem putNowait_full {q : Queue maxsize α} (h : q.full = true) (x : α) :
    q.putNowait x = none := by
  simp [putNowait, h]

theorem putNowait_room {q : Queue maxsize α} (h : q.full = false) (x : α) :
    ∃ q', q.putNowait x = some q' ∧ q'.items = q.items ++ [x] := by
  simp [putNowait, h]

/-- A queue that is not full gets one more; of a full one, the oldest makes room. -/
theorem putDropping_cases (q : Queue maxsize α) (x : α) :
    (q.full = false ∧ (q.putDropping x).1.items = q.items ++ [x] ∧ (q.putDropping x).2 = []) ∨
    ∃ oldest rest, q.full = true ∧ q.items = oldest :: rest ∧
      (q.putDropping x).1.items = rest ++ [x] ∧ (q.putDropping x).2 = [oldest] := by
  unfold putDropping
  cases hfull : q.full with
  | false =>
    left
    obtain ⟨q', hput, hitems⟩ := putNowait_room hfull x
    simp [hput, hitems]
  | true =>
    right
    simp only [putNowait_full hfull]
    simp only [full, Bool.and_eq_true, decide_eq_true_eq] at hfull
    obtain ⟨hpos, hle⟩ := hfull
    rcases getNowait_cases q with ⟨hnil, -⟩ | ⟨oldest, q', hitems, hget⟩
    · rw [hnil, List.length_nil] at hle
      omega
    · -- without the oldest there is room for one
      have hbound := q.bounded hpos
      rw [hitems, List.length_cons] at hbound
      have hroom : q'.full = false := by
        simp only [full, Bool.and_eq_false_iff, decide_eq_false_iff_not]
        omega
      obtain ⟨q'', hput, hitems'⟩ := putNowait_room hroom x
      exact ⟨oldest, q'.items, trivial, hitems, by simp [hget, hput, hitems']⟩

end Queue

/-! ## The account -/

/-- What entered a queue, what was taken from it, and what was discarded. -/
structure Flow (α : Type) where
  entered : List α := []
  taken : List α := []
  discarded : List α := []

namespace Flow
variable {α : Type} {f : Flow α} {items : List α}

/-- What entered is taken, in the queue or discarded, each once; what is taken and what is
    in the queue are in the order they entered. -/
structure Holds (f : Flow α) (items : List α) : Prop where
  order : (f.taken ++ items).Sublist f.entered
  once : f.entered.Perm (f.taken ++ (items ++ f.discarded))

theorem Holds.put (h : f.Holds items) (x : α) :
    Holds { f with entered := f.entered ++ [x] } (items ++ [x]) where
  order := by
    rw [← List.append_assoc]
    exact h.order.append (List.Sublist.refl [x])
  once := by
    have := h.once.append_right [x]
    simp only [List.append_assoc] at this ⊢
    apply this.trans
    apply List.Perm.append_left
    apply List.Perm.append_left
    exact List.perm_append_comm

theorem Holds.putDropping {oldest : α} (h : f.Holds (oldest :: items)) (x : α) :
    Holds { f with entered := f.entered ++ [x], discarded := f.discarded ++ [oldest] }
      (items ++ [x]) where
  order := by
    rw [← List.append_assoc]
    apply List.Sublist.append ?_ (List.Sublist.refl [x])
    exact (List.Sublist.append_left (List.sublist_cons_self oldest items) f.taken).trans h.order
  once := by
    have := h.once.append_right [x]
    apply this.trans
    simp only [List.append_assoc, List.cons_append]
    apply List.Perm.append_left
    -- the oldest moves behind what was discarded before it
    have hx : (f.discarded ++ [x]).Perm ([x] ++ f.discarded) := List.perm_append_comm
    apply ((hx.append_left items).cons oldest).trans
    apply (List.perm_append_singleton oldest (items ++ ([x] ++ f.discarded))).symm.trans
    simp

theorem Holds.take {x : α} (h : f.Holds (x :: items)) :
    Holds { f with taken := f.taken ++ [x] } items where
  order := by simpa using h.order
  once := by simpa using h.once

theorem Holds.drain (h : f.Holds items) : Holds { f with taken := f.taken ++ items } [] where
  order := by simpa using h.order
  once := by simpa using h.once

theorem sublist_drop_put {entered : List α} {n : Nat} (hn : n ≤ entered.length)
    (h : items.Sublist (entered.drop n)) (x : α) :
    (items ++ [x]).Sublist ((entered ++ [x]).drop n) := by
  rw [List.drop_append_of_le_length hn]
  exact h.append (List.Sublist.refl [x])

end Flow
end Asyncio
