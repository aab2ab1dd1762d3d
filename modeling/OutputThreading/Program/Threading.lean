import OutputThreading.Program.Basic
import OutputThreading.Template.Threading

/-!
# Threading output through a program

The main text collects its output in the accumulator, from its declaration on the first line to the
statement on the last line that emits it.
-/

namespace OutputThreading
namespace Text

/-- End a text with a line break unless it is empty or has one. -/
def endLine (text : Text) : Text :=
  if text.isEmpty || text.getLast? = some '\n' then text else text ++ ['\n']

/-- Thread the output of a main text. -/
def threadMain
    (text : Text)
    (context : ThreadingContext)
    (unknownCalls : UnknownCalls) : Except CompileError Text := do
  let accumulator := context.names.accumulator
  let threaded ← context.threadCalls unknownCalls (text.collectPrints accumulator)
  return Accumulator.declare accumulator ++ ['\n'] ++ threaded.endLine ++
    Accumulator.emit accumulator ++ ['\n']

end Text

namespace Program

/-- Thread the output of the templates, then that of the main text. -/
def thread
    (program : Program)
    (names : NameSupply)
    (config : Config) : Except CompileError Program := do
  let context : ThreadingContext := ⟨names, program.templates.signatures⟩
  let templates ← program.templates.thread context config
  let main ← program.main.threadMain context config.unknownCalls
  return ⟨templates, main⟩

end Program
end OutputThreading
