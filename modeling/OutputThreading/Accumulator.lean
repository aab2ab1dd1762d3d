import OutputThreading.Statement

/-!
# The accumulator

A template collects its output in a variable, the accumulator.  This module holds the few phrases
of generated code that work on it: declaring it, appending to it, emitting it, pairing it with a
return value, and taking such a pair apart.
-/

namespace OutputThreading
namespace Accumulator

/-- Start an accumulator with empty text. -/
def declare (accumulator : Text) : Text :=
  (Statement.mk (accumulator ++ " := \"\"".toList)).text

/-- The interior of an append in front of the appended expression. -/
def appendHead (accumulator : Text) : Text :=
  accumulator ++ " = joinStr \"\\n\" ".toList ++ accumulator ++ [' ']

/-- Add the value of an expression to the accumulator, on a line of its own. -/
def append (accumulator expression : Text) : Text :=
  (Statement.mk (appendHead accumulator ++ expression)).text

/-- Emit what was accumulated. -/
def emit (accumulator : Text) : Text :=
  (Statement.mk accumulator).text

/-- The accumulated text together with a value. -/
def pair (accumulator expression : Text) : Text :=
  "(cslice ".toList ++ accumulator ++ " (".toList ++ expression ++ "))".toList

/-- One component of a pair. -/
def project (pair : Text) (index : Nat) : Text :=
  "(index ".toList ++ pair ++ [' '] ++ Text.ofNat index ++ [')']

end Accumulator
end OutputThreading
