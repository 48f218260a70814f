import HookGuard.Lib.Url

/- Where a reference leads a browser from a page: the origin of the URL that the WHATWG URL
   parser makes of it. The base is the URL of the page, of a special scheme that has a
   host. What names a scheme or a host of its own is read on by the states behind, and what
   origin they find, if any, is `absolute`, a parameter.

   The parser drops spaces and control characters at either end, and tabs and line ends
   anywhere, before it reads anything, and under a special scheme takes a backslash for a
   slash. So a reference stays on the origin of its base when, as the parser sees it, it
   begins with one slash (`resolve_rooted`). -/
namespace Whatwg
open Py

structure Origin where
  scheme : Str
  host : Str
  port : Option Nat
  deriving DecidableEq

/-- The special schemes, but for `file`. -/
def specialSchemes : List Str := [lit "ftp", lit "http", lit "https", lit "ws", lit "wss"]

/-- The origin of the base, which is of one of these schemes. -/
structure Base where
  origin : Origin
  special : origin.scheme ∈ specialSchemes

/-- A C0 control or space. -/
def isControl (c : Nat) : Bool := c ≤ 32

def isTabOrNewline (c : Nat) : Bool := c == 9 || c == 10 || c == 13

/-- Under a special scheme. -/
def isSlash (c : Nat) : Bool := c == 47 || c == 92

/-- What the parser reads of its input. -/
def cleaned (input : Str) : Str := (stripBy isControl input).filter fun c => !isTabOrNewline c

section States
variable (absolute : Str → Str → Option Origin) (base : Base)

/-- The special authority ignore slashes state: a host follows, and its scheme is known. -/
def ignoreSlashes (scheme input : Str) : Option Origin :=
  absolute scheme (lit "//" ++ input.dropWhile isSlash)

/-- The relative slash state, behind the first slash. -/
def relativeSlash (input : Str) : Option Origin :=
  match input with
  | [] => some base.origin
  | c :: rest =>
    if isSlash c then ignoreSlashes absolute base.origin.scheme rest else some base.origin

/-- The relative state. -/
def relative (input : Str) : Option Origin :=
  match input with
  | [] => some base.origin
  | c :: rest => if isSlash c then relativeSlash absolute base rest else some base.origin

/-- The special relative or authority state. -/
def specialRelative (input : Str) : Option Origin :=
  match input with
  | 47 :: 47 :: rest => ignoreSlashes absolute base.origin.scheme rest
  | _ => relative absolute base input

/-- The origin of a reference, from the scheme start state on. -/
def resolve (input : Str) : Option Origin :=
  match splitScheme (cleaned input) with
  | ([], _) => relative absolute base (cleaned input)
  | (scheme, rest) =>
    if scheme = base.origin.scheme then specialRelative absolute base rest
    else absolute scheme rest

end States

theorem https_special : lit "https" ∈ specialSchemes := by decide

/-- The page of a host. -/
def page (host : Str) : Base := ⟨⟨lit "https", host, none⟩, https_special⟩

/-- A slash and a tab lead to another host, a slash and an escaped one do not. -/
example : resolve (fun scheme rest => some ⟨scheme, rest, none⟩) (page (lit "console.example"))
    (lit "/\t/evil.example") = some ⟨lit "https", lit "//evil.example", none⟩ := by decide
example : resolve (fun _ _ => none) (page (lit "console.example")) (lit "/%09/evil.example") =
    some ⟨lit "https", lit "console.example", none⟩ := by decide

variable {absolute : Str → Str → Option Origin} {base : Base}

theorem cleaned_eq {input : Str} (h : ∀ c ∈ input, 32 < c) : cleaned input = input := by
  have hstrip : stripBy isControl input = input := by
    apply stripBy_eq_self
    intro c hc
    have := h c hc
    simp [isControl, this]
  rw [cleaned, hstrip, List.filter_eq_self]
  intro c hc
  have := h c hc
  simp only [isTabOrNewline, Bool.not_eq_true', Bool.or_eq_false_iff, beq_eq_false_iff_ne]
  omega

theorem splitScheme_slash (rest : Str) : (splitScheme (47 :: rest)).1 = [] := by
  have hslash : isAsciiAlpha 47 = false := by decide
  unfold splitScheme
  split
  · next c s r heq =>
    have hc : c = 47 := by
      unfold partition at heq
      split at heq
      · cases heq
      · rw [List.takeWhile_cons_of_pos (by decide), Prod.mk.injEq, List.cons.injEq] at heq
        exact heq.1.1.symm
    rw [hc, hslash]
    rfl
  · rfl

/-- One slash in front, and no other behind it, names no host. -/
theorem resolve_rooted {rest : Str} (hslash : ∀ c ∈ rest.head?, isSlash c = false)
    (hplain : ∀ c ∈ rest, 32 < c) :
    resolve absolute base (47 :: rest) = some base.origin := by
  have hclean : cleaned (47 :: rest) = 47 :: rest := by
    apply cleaned_eq
    rw [List.forall_mem_cons]
    exact ⟨by decide, hplain⟩
  have hscheme := splitScheme_slash rest
  have hrelative : relative absolute base (47 :: rest) = some base.origin := by
    rw [relative, if_pos (by decide)]
    cases rest with
    | nil => rfl
    | cons c rest => rw [relativeSlash, hslash c rfl]; rfl
  unfold resolve
  rw [hclean]
  split
  · exact hrelative
  · next s r hne heq =>
    rw [heq] at hscheme
    exact absurd hscheme hne

end Whatwg
