import OutputThreading.Command.Options
import OutputThreading.Compile
import OutputThreading.Config.Reader
import OutputThreading.Files.Listing

/-!
# Running the command

A run reads the configuration, lists the input files, and compiles them one after the other.  With
an output folder, the result of every file goes to its place below that folder; without one, the
result of a single file is the output of the run.  A run stops at the first failure and keeps what
was written before.
-/

namespace OutputThreading
namespace Command

/-- The reason why a run failed. -/
inductive Failure where
  /-- The configuration file cannot be read. -/
  | unreadableConfig (error : FileError)
  /-- The configuration file does not describe a configuration. -/
  | invalidConfig
  /-- There is no mode of that name. -/
  | invalidMode (name : Text)
  /-- There is no naming strategy of that name. -/
  | invalidNaming (name : Text)
  /-- The inputs stand for no file at all. -/
  | noInputFiles
  /-- There are several files and no output folder. -/
  | needsOutDir
  /-- A file cannot be read. -/
  | unreadable (path : Path) (error : FileError)
  /-- A file cannot be compiled. -/
  | uncompilable (path : Path) (error : CompileError)
  /-- A folder cannot be made. -/
  | uncreatable (path : Path) (error : FileError)
  /-- A file cannot be written. -/
  | unwritable (path : Path) (error : FileError)
deriving Repr, DecidableEq

namespace Failure

/-- The message for a failure. -/
def message : Failure → Text
  | unreadableConfig error => "cannot read config: ".toList ++ error.message
  | invalidConfig => "invalid config JSON".toList
  | invalidMode name => "invalid mode: ".toList ++ name
  | invalidNaming name => "invalid naming: ".toList ++ name
  | noInputFiles => "no input files found".toList
  | needsOutDir => "several input files need --out-dir".toList
  | unreadable path error => "cannot read ".toList ++ path.text ++ ": ".toList ++ error.message
  | uncompilable path error => path.text ++ ": ".toList ++ error.message
  | uncreatable path error => "cannot create ".toList ++ path.text ++ ": ".toList ++ error.message
  | unwritable path error => "cannot write ".toList ++ path.text ++ ": ".toList ++ error.message

end Failure

/-! ## Configuration -/

/-- Where a configuration is looked for if none is given. -/
def defaultConfigs : List Path :=
  [⟨"tmplc.config.json".toList⟩, ⟨"config/tmplc.config.json".toList⟩]

/-- The configuration file of a run. -/
def configPath? (disk : Disk) (options : Options) : Option Path :=
  options.config.or (defaultConfigs.find? disk.isFile)

/-- The configuration in a file. -/
def readConfig (disk : Disk) (path : Path) : Except Failure Config := do
  let text ← (disk.readText path).mapError .unreadableConfig
  match Config.ofText? text with
  | some config => return config
  | none => throw .invalidConfig

/-- The mode with a given name, or the one that is set if no name is given. -/
def chooseMode (name : Option Text) (current : Mode) : Except Failure Mode :=
  match name with
  | none => .ok current
  | some name =>
      match Mode.all.find? fun mode => mode.name = name with
      | some mode => .ok mode
      | none => .error (.invalidMode name)

/-- The naming strategy with a given name, or the one that is set if no name is given. -/
def chooseNaming (name : Option Text) (current : Naming) : Except Failure Naming :=
  match name with
  | none => .ok current
  | some name =>
      match Naming.all.find? fun naming => naming.name = name with
      | some naming => .ok naming
      | none => .error (.invalidNaming name)

/-- The configuration of a run: that of its file, with the options of the command line on top. -/
def loadConfig (disk : Disk) (options : Options) : Except Failure Config := do
  let config ← match configPath? disk options with
    | some path => readConfig disk path
    | none => pure {}
  let mode ← chooseMode options.mode config.mode
  let naming ← chooseNaming options.naming config.naming
  let unknownCalls := if options.strictCalls then .error else config.unknownCalls
  return { config with mode, naming, unknownCalls }

/-! ## Jobs -/

/-- A file to compile. -/
structure Job where
  /-- The path of the file. -/
  source : Path
  /-- The place of the result below the output folder. -/
  relative : List Text
deriving Repr, DecidableEq

/-- The jobs for one input, ordered by their paths.  Results keep their location below an input
folder; that of an input file goes by its name alone. -/
def jobsOf (disk : Disk) (input : Path) : List Job :=
  let jobs := (disk.filesOf input).map fun names =>
    { source := input.descend names
      relative := if names.isEmpty then [input.lastName] else names : Job }
  jobs.mergeSort fun left right => left.source.le right.source

/-- The jobs of a run. -/
def jobs (disk : Disk) (options : Options) : List Job :=
  options.inputs.flatMap (jobsOf disk)

/-- Where the result of a job goes. -/
def Job.target (job : Job) (outDir : Path) : Path :=
  outDir.join (Path.ofNames job.relative).text

/-- Compile the file of a job. -/
def Job.compile (job : Job) (disk : Disk) (config : Config) : Except Failure Text := do
  let text ← (disk.readText job.source).mapError (.unreadable job.source)
  (OutputThreading.compile config text).mapError (.uncompilable job.source)

/-! ## Runs -/

/-- Steps that change a disk and may fail; a failure keeps the changes made before it. -/
abbrev Session := ExceptT Failure (StateM Disk)

/-- Do a job: compile its file and write the result. -/
def Job.run (job : Job) (config : Config) (outDir : Path) : Session Unit := do
  let result ← ExceptT.mk (pure (job.compile (← get) config))
  let target := job.target outDir
  match target.parent? with
  | some parent =>
      set (← ExceptT.mk (pure (((← get).makeFolders parent).mapError (.uncreatable parent))))
  | none => pure ()
  set (← ExceptT.mk (pure (((← get).writeText target result).mapError (.unwritable target))))

/-- The report on a run with an output folder. -/
def report (count : Nat) (outDir : Path) (mode : Mode) : Text :=
  "compiled ".toList ++ Text.ofNat count ++ " file(s) -> ".toList ++ outDir.text ++
    " (".toList ++ mode.title ++ ")".toList

/-- What a successful run prints. -/
structure Printed where
  /-- The text for the standard output. -/
  output : Text := []
  /-- The lines for the standard error. -/
  messages : List Text := []
deriving Repr, DecidableEq

/-- Run the command with the given options. -/
def execute (options : Options) : Session Printed := do
  let config ← ExceptT.mk (pure (loadConfig (← get) options))
  let jobs := jobs (← get) options
  if jobs.isEmpty then throw .noInputFiles
  match options.outDir, jobs with
  | some outDir, jobs => do
      jobs.forM fun job => job.run config outDir
      return { messages := [report jobs.length outDir config.mode] }
  | none, [job] => do
      return { output := ← ExceptT.mk (pure (job.compile (← get) config)) }
  | none, _ => throw .needsOutDir

/-- What a run leads to. -/
structure Outcome where
  /-- The exit code: zero for success, one for a failure, two for arguments that make no sense. -/
  exitCode : Nat
  /-- The text for the standard output. -/
  output : Text
  /-- The lines for the standard error. -/
  messages : List Text
  /-- The disk after the run. -/
  disk : Disk

/-- Run the command with the given arguments. -/
def run (disk : Disk) (arguments : List Text) : Outcome :=
  match Options.ofArguments? arguments with
  | none => { exitCode := 2, output := [], messages := [], disk }
  | some options =>
      match (execute options).run disk with
      | (.ok printed, disk) =>
          { exitCode := 0, output := printed.output, messages := printed.messages, disk }
      | (.error failure, disk) =>
          { exitCode := 1, output := [], messages := ["error: ".toList ++ failure.message], disk }

end Command
end OutputThreading
