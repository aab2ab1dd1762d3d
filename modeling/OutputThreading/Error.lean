import OutputThreading.Block

/-!
# Compile errors

Three things can be wrong with a source text.  Each error names the line it was found on, counted
from one.
-/

namespace OutputThreading

/-- The reason why a text cannot be compiled. -/
inductive CompileError where
  /-- A block is never closed. -/
  | unclosedBlock (block : OpenBlock)
  /-- A variable uses a name that is reserved for generated variables. -/
  | reservedVariable (name : Text) (line : Nat)
  /-- A call names a template that is not defined. -/
  | undefinedTemplate (name : Text) (line : Nat)
deriving Repr, DecidableEq

namespace CompileError

/-- The line an error was found on. -/
def line : CompileError → Nat
  | unclosedBlock block => block.line
  | reservedVariable _ line => line
  | undefinedTemplate _ line => line

/-- What is wrong, without the line. -/
def complaint : CompileError → Text
  | unclosedBlock block =>
      ['`'] ++ block.keyword.opener ++ "` block has no matching `".toList ++ Marker.closer ++ ['`']
  | reservedVariable name _ =>
      "variable `".toList ++ name ++ "` must not contain the word output".toList
  | undefinedTemplate name _ =>
      "call to undefined template `".toList ++ name ++ ['`']

/-- The message for an error. -/
def message (error : CompileError) : Text :=
  "line ".toList ++ Text.ofNat error.line ++ ": ".toList ++ error.complaint

end CompileError
end OutputThreading
