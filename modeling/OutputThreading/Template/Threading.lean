import OutputThreading.Config
import OutputThreading.Template.Basic

/-!
# Threading output through templates

A producing template declares its accumulator behind its head, collects its prints there, threads
its calls, and hands the accumulator back at every return.  If it has no return, one is added in
front of its last end statement.  In a pure template only the calls are looked at.
-/

namespace OutputThreading
namespace Text

/-- Declare the accumulator on a new line behind the first statement. -/
def declareAccumulator (text accumulator indent : Text) : Text :=
  match text.breakOn? Statement.closing with
  | some (head, body) =>
      head ++ Statement.closing ++ ['\n'] ++ indent ++ Accumulator.declare accumulator ++ body
  | none => text

/-- Add a bare return in front of the last end statement if the text has no return.  It goes on a
line of its own if the end statement is the first on its line. -/
def ensureReturn (text indent : Text) : Text :=
  if Return.form.occursIn text then text
  else
    match text.breakOnLast? Marker.closer with
    | some (front, behind) =>
        if front.lastLine.isBlank then
          front.beforeLastLine ++ indent ++ Return.bare.text ++ ['\n'] ++ front.lastLine ++
            Marker.closer ++ behind
        else front ++ Return.bare.text ++ Marker.closer ++ behind
    | none => text

end Text

namespace Template

/-- The text of a producing template with its accumulator declared, its prints collected, and a
return at its end. -/
def prepared (template : Template) (accumulator indent : Text) : Text :=
  let declared := template.text.declareAccumulator accumulator indent
  (declared.collectPrints accumulator).ensureReturn indent

/-- Thread the output of a template. -/
def thread
    (template : Template)
    (context : ThreadingContext)
    (config : Config) : Except CompileError Template := do
  let accumulator := context.names.accumulator
  if template.signature.isProducing then
    let threaded ← context.threadCalls config.unknownCalls
      (template.prepared accumulator config.indent)
    return { template with text := threaded.returnOutput accumulator }
  else
    let threaded ← context.threadCalls config.unknownCalls template.text
    return { template with text := threaded }

end Template

namespace Templates

/-- Thread the output of all templates. -/
def thread
    (templates : Templates)
    (context : ThreadingContext)
    (config : Config) : Except CompileError Templates :=
  templates.mapM fun template => template.thread context config

end Templates
end OutputThreading
