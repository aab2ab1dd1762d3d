import OutputThreading.Files.Path

/-!
# Command line options

Arguments are options or input paths.  An option with a value takes it from the same argument or
from the next one; flags may be bundled behind one dash; a double dash ends the options.  Every
option may be given once, paths must not be empty, and there must be an input.
-/

namespace OutputThreading
namespace Command

/-- An option that takes a value. -/
inductive ValueOption where
  | outDir
  | mode
  | naming
  | config
deriving Repr, DecidableEq

namespace ValueOption

/-- All options that take a value. -/
def all : List ValueOption :=
  [.outDir, .mode, .naming, .config]

/-- The long name of an option. -/
def longName : ValueOption → Text
  | .outDir => "out-dir".toList
  | .mode => "mode".toList
  | .naming => "naming".toList
  | .config => "config".toList

/-- The option with a given letter. -/
def ofLetter? : Char → Option ValueOption
  | 'o' => some .outDir
  | 'm' => some .mode
  | _ => none

end ValueOption

/-- An option without a value. -/
inductive Flag where
  | strictCalls
  | verbose
deriving Repr, DecidableEq

namespace Flag

/-- All flags. -/
def all : List Flag :=
  [.strictCalls, .verbose]

/-- The long name of a flag. -/
def longName : Flag → Text
  | .strictCalls => "strict-calls".toList
  | .verbose => "verbose".toList

/-- The flag with a given letter. -/
def ofLetter? : Char → Option Flag
  | 'v' => some .verbose
  | _ => none

end Flag

/-- One thing that the command line says. -/
inductive Setting where
  /-- An input path. -/
  | input (path : Text)
  /-- An option with its value. -/
  | value (option : ValueOption) (value : Text)
  /-- A flag. -/
  | flag (flag : Flag)
deriving Repr, DecidableEq

/-- What one argument says, before the next argument is looked at. -/
inductive Reading where
  /-- The argument is complete. -/
  | complete (settings : List Setting)
  /-- The value of an option is still to come. -/
  | awaiting (settings : List Setting) (option : ValueOption)
  /-- Only input paths follow. -/
  | endOfOptions
deriving Repr, DecidableEq

/-- Read an argument behind its double dash. -/
def readLong? (text : Text) : Option Reading :=
  match text.breakOn? ['='] with
  | some (name, given) => do
      let option ← ValueOption.all.find? fun option => option.longName = name
      return .complete [.value option given]
  | none =>
      match ValueOption.all.find? fun option => option.longName = text with
      | some option => some (.awaiting [] option)
      | none => do
          let flag ← Flag.all.find? fun flag => flag.longName = text
          return .complete [.flag flag]

/-- Put a setting in front of a reading. -/
def Reading.prepend (setting : Setting) : Reading → Reading
  | .complete settings => .complete (setting :: settings)
  | .awaiting settings option => .awaiting (setting :: settings) option
  | .endOfOptions => .endOfOptions

/-- Read an argument behind its single dash: flags, then possibly an option and its value. -/
def readShort? : Text → Option Reading
  | [] => some (.complete [])
  | letter :: rest =>
      match Flag.ofLetter? letter with
      | some flag => (readShort? rest).map (Reading.prepend (.flag flag))
      | none => do
          let option ← ValueOption.ofLetter? letter
          match rest with
          | [] => return .awaiting [] option
          | '=' :: given => return .complete [.value option given]
          | given => return .complete [.value option given]

/-- Read one argument. -/
def readArgument? (argument : Text) : Option Reading :=
  match argument with
  | ['-', '-'] => some .endOfOptions
  | '-' :: '-' :: long => readLong? long
  | ['-'] => some (.complete [.input argument])
  | '-' :: short => readShort? short
  | _ => some (.complete [.input argument])

/-- The argument may be the value of the option in front of it: it does not look like an option. -/
def isValue (argument : Text) : Bool :=
  argument.head? ≠ some '-' || argument = ['-']

/-- What the arguments say, from left to right. -/
def settings? : List Text → Option (List Setting)
  | [] => some []
  | argument :: arguments => do
      match ← readArgument? argument with
      | .endOfOptions => return arguments.map .input
      | .complete settings => return settings ++ (← settings? arguments)
      | .awaiting settings option =>
          match arguments with
          | [] => none
          | given :: arguments =>
              if isValue given then
                return settings ++ .value option given :: (← settings? arguments)
              else none

/-- The options of a run. -/
structure Options where
  /-- The files and folders to compile. -/
  inputs : List Path
  /-- The folder for the results. -/
  outDir : Option Path
  /-- The name of the mode. -/
  mode : Option Text
  /-- The name of the naming strategy. -/
  naming : Option Text
  /-- The configuration file. -/
  config : Option Path
  /-- Calls of templates that are not defined are errors. -/
  strictCalls : Bool
deriving Repr, DecidableEq

/-- The input paths among the settings. -/
def inputsIn (settings : List Setting) : List Text :=
  settings.filterMap fun
    | .input path => some path
    | _ => none

/-- The value of an option that is given at most once. -/
def valueIn? (settings : List Setting) (option : ValueOption) : Option (Option Text) :=
  let given := settings.filterMap fun
    | .value other given => if other = option then some given else none
    | _ => none
  match given with
  | [] => some none
  | [value] => some (some value)
  | _ => none

/-- Whether a flag is given that is given at most once. -/
def flagIn? (settings : List Setting) (flag : Flag) : Option Bool :=
  match settings.count (.flag flag) with
  | 0 => some false
  | 1 => some true
  | _ => none

/-- A path that is not empty. -/
def path? (text : Text) : Option Path :=
  if text.isEmpty then none else some ⟨text⟩

/-- A path that may be missing, but not empty. -/
def optionalPath? : Option Text → Option (Option Path)
  | none => some none
  | some text => (path? text).map some

/-- The options that the arguments ask for, if they make sense. -/
def Options.ofArguments? (arguments : List Text) : Option Options := do
  let settings ← settings? arguments
  let inputs ← (inputsIn settings).mapM path?
  let outDir ← optionalPath? (← valueIn? settings .outDir)
  let mode ← valueIn? settings .mode
  let naming ← valueIn? settings .naming
  let config ← optionalPath? (← valueIn? settings .config)
  let strictCalls ← flagIn? settings .strictCalls
  let _ ← flagIn? settings .verbose
  if inputs.isEmpty then none
  else return { inputs, outDir, mode, naming, config, strictCalls }

end Command
end OutputThreading
