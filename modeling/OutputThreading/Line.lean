import OutputThreading.Statement

/-!
# Lines

A line that is not written as a statement is a bare line; wrapping puts it between double braces and
keeps its indentation.  Blank lines and lines that already start and end with double braces stay as
they are.
-/

namespace OutputThreading
namespace Text

/-- The lines of a text.  A line ends at a line break, a carriage return right in front of the break
belongs to it, and behind the last break there is a further line only if there is further text. -/
def lines : Text → List Text
  | [] => []
  | '\n' :: rest => [] :: lines rest
  | '\r' :: '\n' :: rest => [] :: lines rest
  | c :: rest =>
      match lines rest with
      | [] => [[c]]
      | line :: others => (c :: line) :: others

/-- The line starts and ends with the braces of a statement, white space aside. -/
def isWrapped (line : Text) : Bool :=
  line.trim.startsWith Statement.opening && line.trim.endsWith Statement.closing

/-- Put a bare line between the braces of a statement. -/
def wrapLine (line : Text) : Text :=
  if line.isBlank || line.isWrapped then line
  else line.leadingSpace ++ (Statement.mk line.trim).text

/-- Wrap every bare line and end every line with a line break. -/
def wrapLines (text : Text) : Text :=
  text.lines.flatMap fun line => line.wrapLine ++ ['\n']

end Text
end OutputThreading
