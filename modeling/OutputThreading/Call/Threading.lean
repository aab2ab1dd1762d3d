import OutputThreading.Accumulator
import OutputThreading.Call.Basic
import OutputThreading.Signature
import OutputThreading.NameSupply

/-!
# Threading output through calls

A call of a template that produces output has to hand that output on to the accumulator of the
caller.  If the template returns no value, its result is its output: the call is appended in front
of the statement and an empty text takes its place.  If it returns a value, its result is a pair:
the call is bound to a temporary in front of the statement, the first component is appended, and
the second component takes the place of the call.  A statement that has nothing left to do is
dropped.
-/

namespace OutputThreading

/-- What is done about calls of templates that are not defined. -/
inductive UnknownCalls where
  /-- Such calls are left as they are. -/
  | passthrough
  /-- Such calls are errors. -/
  | error
deriving Repr, DecidableEq

/-- What threading a call leads to. -/
structure ThreadedCall where
  /-- Statements that go in front of the statement with the call. -/
  setup : List Text
  /-- The expression that takes the place of the call. -/
  value : Text
deriving Repr, DecidableEq

/-- What threading depends on: the generated names and the signatures of the templates. -/
structure ThreadingContext where
  /-- The generated names. -/
  names : NameSupply
  /-- The signatures of the templates that are defined. -/
  signatures : Signatures

namespace Call

/-- Number the calls of a statement: every call gets the number of calls of the same template in
front of it, where `earlier` are the templates called so far. -/
def number (earlier : List Text) : List (Piece Call) → List (Piece (Call × Nat))
  | [] => []
  | .char c :: pieces => .char c :: number earlier pieces
  | .phrase call :: pieces =>
      .phrase (call, earlier.count call.callee) :: number (call.callee :: earlier) pieces

end Call

namespace ThreadingContext

/-- The empty text as an expression. -/
def emptyValue : Text := ['"', '"']

/-- Thread a call of a template that produces output, and no other call. -/
def threadCall? (context : ThreadingContext) (call : Call) (earlier : Nat) : Option ThreadedCall :=
  match context.signatures call.callee with
  | some ⟨.producing, .bare⟩ =>
      some {
        setup := [Accumulator.append context.names.accumulator
          (['('] ++ call.normalized.text ++ [')'])]
        value := emptyValue }
  | some ⟨.producing, .valued⟩ =>
      let temporary := context.names.temporary call.callee earlier
      some {
        setup := [
          (Statement.mk (temporary ++ " := ".toList ++ call.normalized.text)).text,
          Accumulator.append context.names.accumulator (Accumulator.project temporary 0)]
        value := Accumulator.project temporary 1 }
  | _ => none

/-- The pieces of a statement, every call with what threading it leads to. -/
def threadedPieces
    (context : ThreadingContext)
    (statement : Statement) : List (Piece (Call × Option ThreadedCall)) :=
  (Call.number [] (Call.form.split statement.interior)).map <|
    Piece.map fun (call, earlier) => (call, context.threadCall? call earlier)

/-- The statements that go in front of a statement. -/
def setup (context : ThreadingContext) (statement : Statement) : List Text :=
  ((context.threadedPieces statement).filterMap Piece.phrase?).flatMap fun (_, threaded) =>
    (threaded.map ThreadedCall.setup).getD []

/-- The statement with values in the place of the threaded calls. -/
def withValues (context : ThreadingContext) (statement : Statement) : Statement where
  interior := (context.threadedPieces statement).flatMap <|
    Piece.text fun (call, threaded) => (threaded.map ThreadedCall.value).getD call.text

/-- The call is all that the statement holds, white space aside. -/
def standsAlone (occurrence : Form.Occurrence Call) : Bool :=
  occurrence.before.isBlank && occurrence.after.isBlank

/-- The statement appends the result of the call in parentheses to the accumulator. -/
def isAppended (context : ThreadingContext) (occurrence : Form.Occurrence Call) : Bool :=
  occurrence.before = Accumulator.appendHead context.names.accumulator ++ ['('] &&
    occurrence.after = [')']

/-- Nothing is left of the statement once its only call is threaded: it only makes that call, or
only appends the result of a call that returns no value. -/
def isSpent (context : ThreadingContext) (statement : Statement) : Bool :=
  match Call.form.occurrences statement.interior with
  | [occurrence] =>
      standsAlone occurrence ||
        (context.isAppended occurrence &&
          context.signatures occurrence.phrase.callee = some ⟨.producing, .bare⟩)
  | _ => false

/-- Thread the calls of one statement that stands on a line with the given indentation. -/
def threadStatement
    (context : ThreadingContext)
    (indentation : Text)
    (statement : Statement) : Text :=
  match context.setup statement with
  | [] => statement.text
  | setup =>
      let kept := if context.isSpent statement then [] else [(context.withValues statement).text]
      List.intercalate ('\n' :: indentation) (setup ++ kept)

/-- Thread every call in the statements of a text. -/
def threadKnownCalls (context : ThreadingContext) (text : Text) : Text :=
  Statement.form.replaceInLine (fun line => context.threadStatement line.indentation) text

/-- The name of the first template called in a statement that is not defined. -/
def undefinedCallee? (context : ThreadingContext) (statement : Statement) : Option Text :=
  statement.callees.find? fun callee => (context.signatures callee).isNone

/-- The error for the first call of a text to a template that is not defined. -/
def undefinedCall? (context : ThreadingContext) (text : Text) : Option CompileError :=
  (Statement.form.lined text).findSome? fun (line, statement) =>
    (context.undefinedCallee? statement).map fun callee => .undefinedTemplate callee line

/-- Thread every call in the statements of a text, unless some call is an error. -/
def threadCalls
    (context : ThreadingContext)
    (unknownCalls : UnknownCalls)
    (text : Text) : Except CompileError Text :=
  match unknownCalls, context.undefinedCall? text with
  | .error, some error => .error error
  | _, _ => .ok (context.threadKnownCalls text)

/-- Threading the calls either fails or threads all of them. -/
theorem eq_threadKnownCalls_of_threadCalls
    {context : ThreadingContext}
    {unknownCalls : UnknownCalls}
    {text threaded : Text}
    (succeeds : context.threadCalls unknownCalls text = .ok threaded) :
    threaded = context.threadKnownCalls text := by
  unfold threadCalls at succeeds
  split at succeeds
  · cases succeeds
  · exact (Except.ok.inj succeeds).symm

end ThreadingContext
end OutputThreading
