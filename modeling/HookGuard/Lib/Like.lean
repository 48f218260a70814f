import Mathlib.Data.List.Infix

/- The patterns of SQL's LIKE with an ESCAPE character, over any alphabet.

   A pattern is read into tokens first: a wildcard for any sequence, one for any single
   character, and characters that stand for themselves, up to case. The character after
   the escape stands for itself, so that a text that is escaped and set between two
   wildcards is looked for anywhere (`like_escaped`). -/
namespace Like

inductive Token (α : Type) where
  | sequence
  | single
  | literal (c : α)

/-- The two wildcards, the escape character, and what case is folded to. -/
structure Syntax (α : Type) where
  sequence : α
  single : α
  escape : α
  fold : α → α
  distinct : sequence ≠ escape

variable {α : Type} [DecidableEq α] (syn : Syntax α)

/-- A character of a pattern that is not escaped. -/
def Syntax.token (c : α) : Token α :=
  if c = syn.sequence then .sequence else if c = syn.single then .single else .literal c

/-- A pattern, read; `none` where it ends with the escape. -/
def Syntax.tokens : List α → Option (List (Token α))
  | [] => some []
  | [c] => if c = syn.escape then none else some [syn.token c]
  | c :: d :: p =>
    if c = syn.escape then (tokens p).map (.literal d :: ·)
    else (tokens (d :: p)).map (syn.token c :: ·)

def Syntax.matchTokens : List (Token α) → List α → Bool
  | [], s => s.isEmpty
  | .sequence :: p, s => s.tails.any (matchTokens p)
  | .single :: p, s => match s with
    | [] => false
    | _ :: s => matchTokens p s
  | .literal c :: p, s => match s with
    | [] => false
    | d :: s => syn.fold d = syn.fold c && matchTokens p s

/-- `s LIKE pattern ESCAPE '...'`; a pattern that ends with the escape matches nothing. -/
def Syntax.like (s pattern : List α) : Bool :=
  match syn.tokens pattern with
  | none => false
  | some p => syn.matchTokens p s

/-- A text with the escape before each of the three characters. -/
def Syntax.escaped (s : List α) : List α :=
  s.flatMap fun c =>
    if c = syn.escape ∨ c = syn.sequence ∨ c = syn.single then [syn.escape, c] else [c]

variable {syn}

theorem tokens_cons_escape (d : α) (p : List α) :
    syn.tokens (syn.escape :: d :: p) = (syn.tokens p).map (.literal d :: ·) := by
  rw [Syntax.tokens, if_pos rfl]

theorem tokens_cons {c : α} (h : c ≠ syn.escape) {p : List α} :
    syn.tokens (c :: p) = (syn.tokens p).map (syn.token c :: ·) := by
  cases p with
  | nil => simp [Syntax.tokens, h]
  | cons d p => rw [Syntax.tokens, if_neg h]

theorem tokens_escaped (s p : List α) :
    syn.tokens (syn.escaped s ++ p) = (syn.tokens p).map (s.map .literal ++ ·) := by
  induction s with
  | nil => simp [Syntax.escaped]
  | cons c s ih =>
    have hcons : syn.escaped (c :: s) = _ ++ syn.escaped s := List.flatMap_cons
    rw [hcons, List.append_assoc]
    split
    · rw [List.cons_append, List.singleton_append, tokens_cons_escape, ih, Option.map_map]
      rfl
    · next hplain =>
      rw [not_or, not_or] at hplain
      have htoken : syn.token c = .literal c := by
        rw [Syntax.token, if_neg hplain.2.1, if_neg hplain.2.2]
      rw [List.singleton_append, tokens_cons hplain.1, ih, htoken, Option.map_map]
      rfl

theorem matchTokens_literals (v s : List α) :
    syn.matchTokens (v.map .literal ++ [.sequence]) s = true ↔
      v.map syn.fold <+: s.map syn.fold := by
  induction v generalizing s with
  | nil =>
    have hall : syn.matchTokens [.sequence] s = true := by
      rw [Syntax.matchTokens, List.any_eq_true]
      exact ⟨[], by simp, rfl⟩
    simpa using hall
  | cons c v ih =>
    cases s with
    | nil => simp [Syntax.matchTokens]
    | cons d s =>
      rw [List.map_cons, List.cons_append, Syntax.matchTokens, List.map_cons, List.map_cons,
        List.cons_prefix_cons, Bool.and_eq_true, ih, decide_eq_true_eq, eq_comm]

theorem tokens_between (v : List α) :
    syn.tokens (syn.sequence :: (syn.escaped v ++ [syn.sequence])) =
      some (.sequence :: (v.map .literal ++ [.sequence])) := by
  have hsequence : syn.token syn.sequence = .sequence := by rw [Syntax.token, if_pos rfl]
  rw [tokens_cons syn.distinct, tokens_escaped, tokens_cons syn.distinct, hsequence]
  rfl

/-- Between two wildcards, an escaped text is looked for anywhere, up to case. -/
theorem like_escaped (v s : List α) :
    syn.like s (syn.sequence :: (syn.escaped v ++ [syn.sequence])) = true ↔
      v.map syn.fold <:+: s.map syn.fold := by
  rw [Syntax.like, tokens_between]
  simp only [Syntax.matchTokens, List.any_eq_true, List.mem_tails, matchTokens_literals]
  refine ⟨?_, ?_⟩
  · rintro ⟨t, hsuffix, hprefix⟩
    exact hprefix.isInfix.trans (hsuffix.map syn.fold).isInfix
  · rintro ⟨front, back, heq⟩
    refine ⟨s.drop front.length, List.drop_suffix _ _, ?_⟩
    rw [List.map_drop, ← heq, List.append_assoc, List.drop_left]
    exact List.prefix_append _ _

end Like
