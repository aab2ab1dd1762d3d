import OutputThreading.Comment
import OutputThreading.Layout
import OutputThreading.Line
import OutputThreading.Program.Extraction
import OutputThreading.Program.Threading

/-!
# Compilation

A compilation normalizes the source text, threads output through the program it describes, and lays
out the result.  The mode decides which of these passes are made.
-/

namespace OutputThreading

/-- The source text as the later passes see it: comments erased if the mode asks for it, and every
bare line wrapped. -/
def Mode.normalize (mode : Mode) (text : Text) : Text :=
  (if mode.erasesComments then text.eraseComments else text).wrapLines

/-- Thread output through the program that a normalized source text describes. -/
def Config.threadText (config : Config) (text : Text) : Except CompileError Text := do
  let names ← NameSupply.ofSource config.naming text
  let program ← Program.ofText text
  return (← program.thread names config).text

/-- The last touches: prints that are left are unwrapped and the layout is made compact if the mode
asks for it. -/
def Mode.finish (mode : Mode) (text : Text) : Text :=
  let unwrapped := if mode.unwrapsPrints then text.unwrapPrints else text
  if mode.compacts then unwrapped.compact else unwrapped

/-- Compile a source text. -/
def compile (config : Config) (text : Text) : Except CompileError Text := do
  let normalized := config.mode.normalize text
  let threaded ← if config.mode.threadsOutput then config.threadText normalized else pure normalized
  return config.mode.finish threaded

/-- A mode that threads output finishes the threaded text. -/
theorem compile_eq_map_finish
    {config : Config}
    (threads : config.mode.threadsOutput = true)
    (text : Text) :
    compile config text =
      (config.threadText (config.mode.normalize text)).map config.mode.finish := by
  unfold compile
  rw [if_pos threads]
  cases config.threadText (config.mode.normalize text) <;> rfl

end OutputThreading
