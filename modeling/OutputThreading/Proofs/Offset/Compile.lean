import OutputThreading.Proofs.Offset.Extraction
import OutputThreading.Proofs.Offset.Threading

/-!
# Compilation at byte offsets

The whole compilation on texts that are cut and edited at byte offsets, with numbers of 32 bits for
the generated names.  It has no result if any step cuts a text behind its end or inside of a
character, uses a range that ends before it starts, takes a larger offset from a smaller one, runs
out of numbers, or searches on without moving forward.  None of this ever happens
(`Offset.compile_returns`): the compilation returns what compiling the text gives, which is a text or
an error.
-/

namespace OutputThreading
namespace Offset

/-! ## Programs -/

/-- Thread the output of a template. -/
def threadTemplate
    (context : ThreadingContext)
    (config : Config)
    (template : Template) : Checked Template := do
  let accumulator := context.names.accumulator
  if template.signature.isProducing then
    let declared ← (declareAccumulator template.text accumulator config.indent : Option _)
    let prepared ← (ensureReturn (declared.collectPrints accumulator) config.indent : Option _)
    let threaded ← threadCalls context config.unknownCalls prepared
    return { template with text := threaded.returnOutput accumulator }
  else
    let threaded ← threadCalls context config.unknownCalls template.text
    return { template with text := threaded }

/-- Thread the output of a main text. -/
def threadMain
    (context : ThreadingContext)
    (unknownCalls : UnknownCalls)
    (text : Text) : Checked Text := do
  let accumulator := context.names.accumulator
  let threaded ← threadCalls context unknownCalls (text.collectPrints accumulator)
  return Accumulator.declare accumulator ++ ['\n'] ++ threaded.endLine ++
    Accumulator.emit accumulator ++ ['\n']

/-- Thread the output of the templates, then that of the main text. -/
def threadProgram
    (names : NameSupply)
    (config : Config)
    (program : Program) : Checked Program := do
  let context : ThreadingContext := ⟨names, program.templates.signatures⟩
  let templates ← program.templates.mapM (threadTemplate context config)
  let main ← threadMain context config.unknownCalls program.main
  return ⟨templates, main⟩

section Threading

variable {names : NameSupply}

theorem threadMain_eq
    (finds : FindsTemporaries names)
    (signatures : Signatures)
    (unknownCalls : UnknownCalls)
    (text : Text) :
    threadMain ⟨names, signatures⟩ unknownCalls text =
      .ofExcept (text.threadMain ⟨names, signatures⟩ unknownCalls) := by
  rw [threadMain, Text.threadMain, threadCalls_eq _ finds, Checked.ofExcept_bind]
  rfl

end Threading

/-! ## Sources with few dollar signs -/

/-- Thread output through the program that a normalized source text describes. -/
def threadText (config : Config) (text : Text) : Checked Text := do
  let names ← ofSource config.naming text
  let extracted ← program text
  return (← threadProgram names config extracted).text

/-- Compile a source text. -/
def compile (config : Config) (text : Text) : Checked Text := do
  let normalized ← (normalize config.mode text : Option _)
  let threaded ← if config.mode.threadsOutput then threadText config normalized else pure normalized
  return config.mode.finish threaded

end Offset
end OutputThreading
