import OutputThreading.Error
import OutputThreading.Variable

/-!
# Generated names

Threading introduces variables: one accumulator, and temporaries that hold the results of calls.
Their names must not clash with the variables of the source.  Under reserved naming the source may
not use any variable that contains the word output; under fresh naming a number is added until the
name is free.
-/

namespace OutputThreading

/-- How generated variables are kept apart from those of the source. -/
inductive Naming where
  /-- Some names are reserved, and the source must not use them. -/
  | reserved
  /-- Names are chosen that the source does not use. -/
  | fresh
deriving Repr, DecidableEq

/-- The name of the accumulator unless it is taken. -/
def Accumulator.defaultName : Text :=
  "$output".toList

/-- The variable contains the word output, capitalised or not. -/
def Variable.isReserved (token : Variable) : Bool :=
  token.name.includes "output".toList || token.name.includes "Output".toList

/-- The names that threading generates for one source. -/
structure NameSupply where
  /-- How names are chosen. -/
  naming : Naming
  /-- The accumulator. -/
  accumulator : Text
  /-- Names that must not be used for temporaries. -/
  taken : List Text
deriving Repr, DecidableEq

namespace NameSupply

/-- The first name that is not taken among `base` with the numbers from `number` on, after at most
`tries` taken ones. -/
def freeNumbered (taken : List Text) (base : Text) (number : Nat) : (tries : Nat) → Text
  | 0 => base ++ Text.ofNat number
  | tries + 1 =>
      if taken.contains (base ++ Text.ofNat number) then freeNumbered taken base (number + 1) tries
      else base ++ Text.ofNat number

/-- The name itself if it is free, else with the least number from one on that makes it free.  No
more numbers than there are taken names have to be tried. -/
def freeName (taken : List Text) (base : Text) : Text :=
  if taken.contains base then freeNumbered taken base 1 taken.length else base

/-- The first variable of a text that uses a reserved name, with its line. -/
def reservedVariable? (text : Text) : Option (Nat × Variable) :=
  (Variable.form.lined text).find? fun (_, token) => token.isReserved

/-- The names generated for a source, unless the source uses a reserved name. -/
def ofSource (naming : Naming) (text : Text) : Except CompileError NameSupply :=
  match naming with
  | .reserved =>
      match reservedVariable? text with
      | some (line, token) => .error (.reservedVariable token.text line)
      | none => .ok ⟨.reserved, Accumulator.defaultName, []⟩
  | .fresh =>
      let accumulator := freeName text.variableNames Accumulator.defaultName
      .ok ⟨.fresh, accumulator, accumulator :: text.variableNames⟩

/-- A template's name as part of a variable: every character but letters, digits and underscores
becomes an underscore. -/
def stem (callee : Text) : Text :=
  callee.map fun c => if Character.isAlphanumeric c || c = '_' then c else '_'

/-- The name for the result of a call before it is made free.  Further calls of the same template
in one statement are numbered. -/
def temporaryBase (callee : Text) (earlier : Nat) : Text :=
  ['$'] ++ stem callee ++ "Output".toList ++ if earlier = 0 then [] else Text.ofNat earlier

/-- The variable for the result of a call that has `earlier` calls of the same template in front of
it in its statement. -/
def temporary (names : NameSupply) (callee : Text) (earlier : Nat) : Text :=
  match names.naming with
  | .reserved => temporaryBase callee earlier
  | .fresh => freeName names.taken (temporaryBase callee earlier)

end NameSupply
end OutputThreading
