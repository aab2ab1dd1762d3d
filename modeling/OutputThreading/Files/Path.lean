import OutputThreading.Text.Basic

/-!
# Paths

A path is kept as it was written, because messages show it that way.  Three readings of it matter:
the steps it takes through folders, the components by which paths are ordered, and its parent.
-/

namespace OutputThreading

/-- A path as it is written. -/
structure Path where
  /-- The written path. -/
  text : Text
deriving Repr, DecidableEq

namespace Path

/-- The path starts at the root. -/
def isAbsolute (path : Path) : Bool :=
  path.text.head? = some '/'

/-- The path ends in a slash, so that it can only name a folder. -/
def endsInSlash (path : Path) : Bool :=
  path.text.getLast? = some '/'

/-- The non-empty parts between the slashes of a path. -/
def parts (path : Path) : List Text :=
  (path.text.splitOn '/').filter fun part => !part.isEmpty

/-- The part that stays where it is. -/
def here : Text := ['.']

/-- The part that leads to the containing folder. -/
def up : Text := ['.', '.']

/-- Extend a path by a relative one. -/
def join (path : Path) (relative : Text) : Path :=
  if path.text.isEmpty || path.endsInSlash then ⟨path.text ++ relative⟩
  else ⟨path.text ++ ['/'] ++ relative⟩

/-- Extend a path by names, one inside the other. -/
def descend (path : Path) (names : List Text) : Path :=
  names.foldl Path.join path

/-- A relative path made of names, one inside the other. -/
def ofNames (names : List Text) : Path :=
  ⟨List.intercalate ['/'] names⟩

/-! ## Order -/

/-- The components of a path.  Parts that stay in place are left out, except at the start of a
relative path. -/
def components (path : Path) : List Text :=
  match path.parts with
  | [] => []
  | first :: others =>
      if first = here && path.isAbsolute then others.filter (· ≠ here)
      else first :: others.filter (· ≠ here)

/-- The key of a component: the place itself comes before the containing folder, and that before
all names, which go by their code points. -/
def componentKey (component : Text) : List Nat :=
  if component = here then [1]
  else if component = up then [2]
  else 3 :: component.map Char.toNat

/-- The key by which paths are ordered; absolute paths come first. -/
def sortKey (path : Path) : List (List Nat) :=
  (if path.isAbsolute then [[0]] else []) ++ path.components.map componentKey

/-- The order of paths by their components. -/
def le (left right : Path) : Bool :=
  (List.compareLex (List.compareLex compare) left.sortKey right.sortKey).isLE

/-! ## Parents -/

/-- Drop what does not matter at the end of a path, which is given from its end: slashes and parts
that stay in place.  The root stays. -/
def trimTail : Text → Text
  | ['/'] => ['/']
  | '/' :: rest => trimTail rest
  | '.' :: '/' :: rest => trimTail ('/' :: rest)
  | text => text

theorem length_trimTail_le (text : Text) : (trimTail text).length ≤ text.length := by
  fun_induction trimTail text with
  | case1 => simp
  | case2 rest _ inductionHypothesis =>
      simp only [List.length_cons]
      omega
  | case3 rest inductionHypothesis =>
      simp only [List.length_cons] at *
      omega
  | case4 => simp

/-- The last part of a path. -/
def lastName (path : Path) : Text :=
  ((trimTail path.text.reverse).takeWhile (· ≠ '/')).reverse

/-- The path of the containing folder, as far as it is written. -/
def parent? (path : Path) : Option Path :=
  if path.lastName.isEmpty then none
  else some ⟨(trimTail ((trimTail path.text.reverse).dropWhile (· ≠ '/'))).reverse⟩

theorem length_parent?_lt
    {path parent : Path}
    (found : path.parent? = some parent) :
    parent.text.length < path.text.length := by
  simp only [parent?, Option.ite_none_left_eq_some, Option.some.injEq] at found
  obtain ⟨named, rfl⟩ := found
  have trimmed := length_trimTail_le path.text.reverse
  have trimmedAgain :=
    length_trimTail_le ((trimTail path.text.reverse).dropWhile (· ≠ '/'))
  have whole := congrArg List.length
    (List.takeWhile_append_dropWhile (p := (· ≠ '/')) (l := trimTail path.text.reverse))
  have nonempty : 0 < ((trimTail path.text.reverse).takeWhile (· ≠ '/')).length := by
    rw [List.length_pos_iff]
    intro empty
    exact named (by rw [lastName, empty]; rfl)
  simp only [List.length_append, List.length_reverse] at *
  omega

/-- A path and the paths of the folders around it, from the inside out. -/
def ancestors (path : Path) : List Path :=
  if path.text.isEmpty then []
  else
    match _found : path.parent? with
    | some parent => path :: parent.ancestors
    | none => [path]
termination_by path.text.length
decreasing_by exact length_parent?_lt _found

end Path
end OutputThreading
