import OutputThreading.Call.Threading

/-!
# Configuration

The mode selects the passes of a compilation; the other settings steer the generated code.
-/

namespace OutputThreading

/-- What a compilation is for. -/
inductive Mode where
  /-- Plain template syntax: nothing is threaded. -/
  | syntaxOnly
  /-- Threaded code with comments, as it runs. -/
  | runtime
  /-- Threaded code with comments, for reading. -/
  | conceptual
  /-- Threaded code, compact and without comments. -/
  | product
deriving Repr, DecidableEq

namespace Mode

/-- All modes. -/
def all : List Mode :=
  [.syntaxOnly, .runtime, .conceptual, .product]

/-- The name of a mode in a configuration and on the command line. -/
def name : Mode → Text
  | .syntaxOnly => "syntax".toList
  | .runtime => "runtime".toList
  | .conceptual => "conceptual".toList
  | .product => "product".toList

/-- The name of a mode as a title. -/
def title : Mode → Text
  | .syntaxOnly => "Syntax".toList
  | .runtime => "Runtime".toList
  | .conceptual => "Conceptual".toList
  | .product => "Product".toList

/-- Comments are erased. -/
def erasesComments (mode : Mode) : Bool :=
  mode = .syntaxOnly || mode = .product

/-- Output is threaded through templates and calls. -/
def threadsOutput (mode : Mode) : Bool :=
  mode ≠ .syntaxOnly

/-- Prints that are left are reduced to their expressions. -/
def unwrapsPrints (mode : Mode) : Bool :=
  mode ≠ .conceptual

/-- White space between statements is removed. -/
def compacts (mode : Mode) : Bool :=
  mode = .product

end Mode

namespace Naming

/-- All naming strategies. -/
def all : List Naming :=
  [.reserved, .fresh]

/-- The name of a naming strategy in a configuration and on the command line. -/
def name : Naming → Text
  | .reserved => "reserved".toList
  | .fresh => "fresh".toList

end Naming

namespace UnknownCalls

/-- All policies for unknown calls. -/
def all : List UnknownCalls :=
  [.passthrough, .error]

/-- The name of a policy in a configuration. -/
def name : UnknownCalls → Text
  | .passthrough => "passthrough".toList
  | .error => "error".toList

end UnknownCalls

/-- The settings of a compilation. -/
structure Config where
  /-- What the compilation is for. -/
  mode : Mode := .syntaxOnly
  /-- How generated variables are named. -/
  naming : Naming := .reserved
  /-- What is done about calls of templates that are not defined. -/
  unknownCalls : UnknownCalls := .passthrough
  /-- The indentation of generated lines. -/
  indent : Text := [' ', ' ', ' ', ' ']
deriving Repr, DecidableEq

end OutputThreading
