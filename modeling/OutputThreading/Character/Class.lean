import OutputThreading.Character.Alphabetic
import OutputThreading.Character.Mark
import OutputThreading.Character.Number
import OutputThreading.Character.Recent

/-!
# Character classes of template text

Three classes decide how template text is read: white space, the characters of a word (which make
up variable names and end keywords), and letters or digits (which may start an argument and may
stand in a generated name).
-/

namespace OutputThreading
namespace Character

/-- White space beyond ASCII, line and paragraph separators among it. -/
def spaceRanges : Ranges :=
  [(0x85, 0x85), (0xA0, 0xA0), (0x1680, 0x1680), (0x2000, 0x200A), (0x2028, 0x2029),
   (0x202F, 0x202F), (0x205F, 0x205F), (0x3000, 0x3000)]

/-- The two invisible characters that steer the joining of their neighbours. -/
def joinControlRanges : Ranges :=
  [(0x200C, 0x200D)]

/-- White space of any kind, line breaks included. -/
def isSpace (c : Char) : Bool :=
  c = ' ' || (0x9 ≤ c.toNat && c.toNat ≤ 0xD) || spaceRanges.has c

/-- A character that may stand in a word: letters, marks and decimal digits that were assigned
early enough, connectors and joiners.  A character outside ASCII may therefore be a letter that
no word has: a word ends in front of it, and a generated name may still hold it. -/
def isWord (c : Char) : Bool :=
  c.isAlphanum || c = '_' || connectorRanges.has c || joinControlRanges.has c ||
    ((alphabeticRanges.has c || markRanges.has c || decimalRanges.has c) && !recentRanges.has c)

/-- A letter or a number of any kind. -/
def isAlphanumeric (c : Char) : Bool :=
  c.isAlphanum || alphabeticRanges.has c || decimalRanges.has c || otherNumberRanges.has c

/-- A character that indents a line: a space or a tab. -/
def isIndent (c : Char) : Bool :=
  c = ' ' || c = '\t'

/-- Blanks are white space. -/
theorem isSpace_of_isIndent {c : Char} (indent : isIndent c = true) : isSpace c = true := by
  simp only [isIndent, Bool.or_eq_true, decide_eq_true_eq] at indent
  rcases indent with rfl | rfl <;> decide

/-- ASCII letters and digits are characters of a word. -/
theorem isWord_of_isAlphanum {c : Char} (alphanumeric : c.isAlphanum = true) :
    isWord c = true := by
  simp [isWord, alphanumeric]

end Character
end OutputThreading
