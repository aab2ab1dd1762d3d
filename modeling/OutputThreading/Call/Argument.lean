import OutputThreading.Text.Basic

/-!
# The argument of a call

A call takes at most one argument, set off by white space: a parenthesised expression, a quoted or
raw literal, or a plain operand.  Parentheses inside literals do not count, and a backslash escapes
the next character of a quoted literal, but not of a raw one.  An argument that is never closed runs
to the end of the text.
-/

namespace OutputThreading
namespace Argument

/-- Where a character stands with respect to parentheses and literals. -/
inductive Nesting where
  /-- Outside of literals, inside of `depth` parentheses. -/
  | code (depth : Nat)
  /-- Inside of a literal that ends at `quote`. -/
  | literal (quote : Char) (depth : Nat)
  /-- Inside of a quoted literal, behind a backslash. -/
  | escaped (depth : Nat)
deriving Repr, DecidableEq

namespace Nesting

/-- The nesting behind a character. -/
def next : Nesting → Char → Nesting
  | code depth, c =>
      if c = '"' ∨ c = '`' then literal c depth
      else if c = '(' then code (depth + 1)
      else if c = ')' then code (depth - 1)
      else code depth
  | literal quote depth, c =>
      if c = '\\' ∧ quote = '"' then escaped depth
      else if c = quote then code depth
      else literal quote depth
  | escaped depth, _ => literal '"' depth

/-- Every parenthesis and every literal is closed. -/
def isClosed (nesting : Nesting) : Bool :=
  nesting = code 0

end Nesting

/-- Cut a text behind the first character that closes everything, or at its end. -/
def takeClosed (nesting : Nesting) : Text → Text × Text
  | [] => ([], [])
  | c :: rest =>
      if (nesting.next c).isClosed then ([c], rest)
      else
        let (taken, remaining) := takeClosed (nesting.next c) rest
        (c :: taken, remaining)

theorem takeClosed_append (nesting : Nesting) (text : Text) :
    (takeClosed nesting text).1 ++ (takeClosed nesting text).2 = text := by
  induction text generalizing nesting with
  | nil => rfl
  | cons c rest inductionHypothesis =>
      rw [takeClosed]
      split
      · simp
      · simp [inductionHypothesis]

/-- The character starts an argument that runs to its closing parenthesis or quote. -/
def opensClosed (c : Char) : Bool :=
  c = '(' || c = '"' || c = '`'

/-- The character starts a plain operand. -/
def opensOperand (c : Char) : Bool :=
  c = '$' || c = '.' || c = '-' || c = '_' || Character.isAlphanumeric c

/-- The character belongs to a plain operand. -/
def inOperand (c : Char) : Bool :=
  !(Character.isSpace c || c = ')')

/-- Cut off the argument at the start of a text that is not white space. -/
def splitTight (text : Text) : Option (Text × Text) :=
  match text with
  | [] => none
  | c :: _ =>
      if opensClosed c then some (takeClosed (.code 0) text)
      else if opensOperand c then some (text.takeWhile inOperand, text.dropWhile inOperand)
      else none

/-- Cut a text behind its leading argument.  The argument includes the white space in front of it
and is empty if there is none. -/
def split (text : Text) : Text × Text :=
  if text.leadingSpace = [] then ([], text)
  else
    match splitTight text.trimStart with
    | some (argument, rest) => (text.leadingSpace ++ argument, rest)
    | none => ([], text)

theorem append_eq_of_splitTight
    {text argument rest : Text}
    (found : splitTight text = some (argument, rest)) :
    argument ++ rest = text := by
  cases text with
  | nil => cases found
  | cons c tail =>
      simp only [splitTight] at found
      split at found
      · simp only [Option.some.injEq] at found
        simpa [found] using takeClosed_append (.code 0) (c :: tail)
      · split at found
        · simp only [Option.some.injEq, Prod.mk.injEq] at found
          obtain ⟨rfl, rfl⟩ := found
          exact List.takeWhile_append_dropWhile
        · cases found

/-- The argument and what follows it make up the text. -/
theorem split_append (text : Text) : (split text).1 ++ (split text).2 = text := by
  rw [split]
  split
  · rfl
  · split
    next found =>
      simp only [List.append_assoc]
      rw [append_eq_of_splitTight found, Text.leadingSpace_append_trimStart]
    next => rfl

end Argument
end OutputThreading
