import Mathlib.Data.List.Induction

/- Runs of a system that takes one step for each action: what holds of every step of a
   run, given what holds of every state and what every step meets; and what the steps of a
   run yield. -/
namespace Runs
variable {S A : Type} (step : S → A → S)

/-- Every step of the run satisfies `P`, of the state before it and its action. -/
def Along (P : S → A → Prop) : S → List A → Prop
  | _, [] => True
  | σ, a :: actions => P σ a ∧ Along P (step σ a) actions

instance Along.decidable {P : S → A → Prop} [∀ σ a, Decidable (P σ a)] :
    ∀ (σ : S) (actions : List A), Decidable (Along step P σ actions)
  | _, [] => isTrue trivial
  | σ, a :: actions =>
    have : Decidable (Along step P (step σ a) actions) := Along.decidable (step σ a) actions
    inferInstanceAs (Decidable (P σ a ∧ Along step P (step σ a) actions))

variable {step} {P C : S → A → Prop} {σ : S} {actions : List A}

/-- What follows of a step from the invariant and `C`, follows along the run. -/
theorem Along.of_invariant (Inv : S → Prop) (hstep : ∀ σ a, Inv σ → C σ a → Inv (step σ a))
    (hP : ∀ σ a, Inv σ → C σ a → P σ a) (hσ : Inv σ) (h : Along step C σ actions) :
    Along step P σ actions := by
  induction actions generalizing σ with
  | nil => exact trivial
  | cons a actions ih =>
    obtain ⟨ha, hrest⟩ := h
    exact ⟨hP σ a hσ ha, ih (hstep σ a hσ ha) hrest⟩

theorem Along.mono {Q : S → A → Prop} (hPQ : ∀ σ a, P σ a → Q σ a)
    (h : Along step P σ actions) : Along step Q σ actions := by
  induction actions generalizing σ with
  | nil => exact trivial
  | cons a actions ih =>
    obtain ⟨ha, hrest⟩ := h
    exact ⟨hPQ σ a ha, ih hrest⟩

theorem Along.congr {Q : S → A → Prop} (h : ∀ σ a, P σ a ↔ Q σ a) (σ : S) (actions : List A) :
    Along step P σ actions ↔ Along step Q σ actions := by
  induction actions generalizing σ with
  | nil => exact Iff.rfl
  | cons a actions ih => exact and_congr (h σ a) (ih _)

theorem Along.concat_iff {a : A} :
    Along step P σ (actions ++ [a]) ↔ Along step P σ actions ∧ P (actions.foldl step σ) a := by
  induction actions generalizing σ with
  | nil => exact and_comm
  | cons b actions ih =>
    show P σ b ∧ Along step P (step σ b) (actions ++ [a]) ↔ _
    rw [ih, ← and_assoc]
    rfl

/-- Where a step from the invariant keeps it exactly under `C`, it holds after every part of
    the run exactly where `C` holds along it. -/
theorem Along.iff_invariant {Inv : S → Prop} (hstep : ∀ σ a, Inv σ → (Inv (step σ a) ↔ C σ a))
    (hσ : Inv σ) :
    (∀ n, Inv ((actions.take n).foldl step σ)) ↔ Along step C σ actions := by
  induction actions generalizing σ with
  | nil => exact iff_of_true (fun n => by rwa [List.take_nil]) trivial
  | cons a actions ih =>
    refine ⟨?_, ?_⟩
    · intro h
      have hnext : Inv (step σ a) := h 1
      refine ⟨(hstep σ a hσ).mp hnext, (ih hnext).mp ?_⟩
      intro n
      exact h (n + 1)
    · rintro ⟨ha, hrest⟩ n
      cases n with
      | zero => exact hσ
      | succ n => exact (ih ((hstep σ a hσ).mpr ha)).mpr hrest n

/-- What holds after a run and not before it came about at one of its steps. -/
theorem exists_turn {Q : S → Prop} (h0 : ¬ Q σ) (h : Q (actions.foldl step σ)) :
    ∃ before a after, actions = before ++ a :: after ∧ ¬ Q (before.foldl step σ) ∧
      Q (step (before.foldl step σ) a) := by
  induction actions generalizing σ with
  | nil => exact absurd h h0
  | cons a actions ih =>
    by_cases hnext : Q (step σ a)
    · exact ⟨[], a, actions, rfl, h0, hnext⟩
    · obtain ⟨before, b, after, rfl, hbefore, hb⟩ := ih hnext h
      exact ⟨a :: before, b, after, rfl, hbefore, hb⟩

/-- The last time it came about: it has held after every step since. -/
theorem exists_last_turn {Q : S → Prop} (h0 : ¬ Q σ) (h : Q (actions.foldl step σ)) :
    ∃ before a after, actions = before ++ a :: after ∧ ¬ Q (before.foldl step σ) ∧
      Q (step (before.foldl step σ) a) ∧
      Along step (fun σ b => Q (step σ b)) (step (before.foldl step σ) a) after := by
  induction actions using List.reverseRecOn with
  | nil => exact absurd h h0
  | append_singleton actions b ih =>
    rw [List.foldl_append] at h
    by_cases hlast : Q (actions.foldl step σ)
    · obtain ⟨before, a, after, rfl, hbefore, ha, hafter⟩ := ih hlast
      rw [List.foldl_append] at h
      exact ⟨before, a, after ++ [b], by simp, hbefore, ha, Along.concat_iff.mpr ⟨hafter, h⟩⟩
    · exact ⟨actions, b, [], rfl, hlast, h, trivial⟩

/-- A history to which each step appends what its action brings: after a run, it is what
    the actions brought. -/
theorem history_foldl {B : Type} {history : S → List B} {brings : A → List B}
    (Inv : S → Prop) (hstep : ∀ σ a, Inv σ → Inv (step σ a))
    (happend : ∀ σ a, Inv σ → history (step σ a) = history σ ++ brings a) (hσ : Inv σ) :
    history (actions.foldl step σ) = history σ ++ actions.flatMap brings := by
  induction actions generalizing σ with
  | nil => exact (List.append_nil _).symm
  | cons a actions ih =>
    calc history (actions.foldl step (step σ a))
        = history (step σ a) ++ actions.flatMap brings := ih (hstep σ a hσ)
      _ = history σ ++ (brings a ++ actions.flatMap brings) := by
          rw [happend σ a hσ, List.append_assoc]
      _ = history σ ++ (a :: actions).flatMap brings := by rw [List.flatMap_cons]

/-- What the steps of a run yield, in turn. -/
def collect {B : Type} (step : S → A → S) (f : S → A → List B) : S → List A → List B
  | _, [] => []
  | σ, a :: actions => f σ a ++ collect step f (step σ a) actions

section Collect
variable {B : Type} {f : S → A → List B}

theorem collect_concat (a : A) : collect step f σ (actions ++ [a]) =
    collect step f σ actions ++ f (actions.foldl step σ) a := by
  induction actions generalizing σ with
  | nil => exact List.append_nil _
  | cons b actions ih =>
    rw [List.cons_append, collect, ih, collect, List.append_assoc]
    rfl

theorem exists_of_mem_collect {b : B} (h : b ∈ collect step f σ actions) :
    ∃ before a after, actions = before ++ a :: after ∧ b ∈ f (before.foldl step σ) a := by
  induction actions generalizing σ with
  | nil => cases h
  | cons a actions ih =>
    rcases List.mem_append.mp h with hb | hb
    · exact ⟨[], a, actions, rfl, hb⟩
    · obtain ⟨before, c, after, rfl, hc⟩ := ih hb
      exact ⟨a :: before, c, after, rfl, hc⟩

end Collect

end Runs
