import OutputThreading.Compile
import OutputThreading.Proofs.Offset.Cut
import OutputThreading.Proofs.Template.Passes

/-!
# Lines and generated lines at byte offsets

Where a line starts, how far it is indented, and where a declaration or a return is put in are told
by offsets that are found by searching for a line break, for braces, or for white space.  All of them
stand between characters, so the lines are cut and the texts are put in as they should be.
-/

namespace OutputThreading
namespace Offset

/-- The offset where the last line of a text starts. -/
def lineStart (text : Text) : Nat :=
  match text.findLast? ['\n'] with
  | some offset => offset + 1
  | none => 0

/-- The indentation of the line that an offset is on. -/
def indentAt (text : Text) (offset : Nat) : Option Text := do
  let front ← text.sliceTo? offset
  let line ← text.sliceFrom? (lineStart front)
  let width ← minus? line.byteSize (Text.byteSize (line.dropWhile Character.isIndent))
  line.sliceTo? width

/-- Put a bare line between the braces of a statement. -/
def wrapLine (line : Text) : Option Text :=
  if line.isBlank || line.isWrapped then return line
  else do
    let width ← minus? line.byteSize line.trimStart.byteSize
    let indentation ← line.sliceTo? width
    return indentation ++ (Statement.mk line.trim).text

/-- The source text as the later passes see it. -/
def normalize (mode : Mode) (text : Text) : Option Text := do
  let source := if mode.erasesComments then text.eraseComments else text
  let wrapped ← source.lines.mapM wrapLine
  return wrapped.flatMap fun line => line ++ ['\n']

/-- Declare the accumulator on a new line behind the first statement. -/
def declareAccumulator (text accumulator indent : Text) : Option Text :=
  match text.find? Statement.closing with
  | some offset => do
      let (head, body) ← text.cut? (offset + 2)
      return head ++ ['\n'] ++ indent ++ Accumulator.declare accumulator ++ body
  | none => return text

/-- Add a bare return in front of the last end statement if the text has no return. -/
def ensureReturn (text indent : Text) : Option Text :=
  if Return.form.occursIn text then return text
  else
    match text.findLast? Marker.closer with
    | none => return text
    | some offset => do
        let front ← text.sliceTo? offset
        let start := lineStart front
        let line ← text.slice? ⟨start, offset⟩
        if line.isBlank then text.insertAt? start (indent ++ Return.bare.text ++ ['\n'])
        else text.insertAt? offset Return.bare.text

/-! ## The start of a line -/

theorem breakOnLast?_singleton {c : Char} {rest : Text} (absent : c ∉ rest) (front : Text) :
    Text.breakOnLast? (front ++ c :: rest) [c] = some (front, rest) := by
  have notFound : rest.breakOnLast? [c] = none := by
    rw [Option.eq_none_iff_forall_ne_some]
    rintro ⟨before, behind⟩ found
    apply absent
    rw [Text.eq_append_of_breakOnLast? found]
    simp
  have here : Text.breakOnLast? (c :: rest) [c] = some ([], rest) := by
    rw [Text.breakOnLast?_cons_of_eq_none notFound]
    simp
  simpa using Text.breakOnLast?_append_of_eq_some here front

theorem newline_notMem_lastLine (text : Text) : '\n' ∉ text.lastLine := by
  intro member
  have passed := List.mem_takeWhile_imp (List.mem_reverse.mp member)
  simp at passed

/-- The last line starts behind the last line break, or where the text starts. -/
theorem lineStart_eq (text : Text) : lineStart text = text.beforeLastLine.byteSize := by
  have whole := text.beforeLastLine_append_lastLine
  have single : '\n'.utf8Size = 1 := by decide
  rcases text.beforeLastLine_cases with empty | ⟨front, ends⟩
  · have notFound : text.breakOnLast? ['\n'] = none := by
      rw [Option.eq_none_iff_forall_ne_some]
      rintro ⟨before, behind⟩ found
      apply newline_notMem_lastLine text
      rw [empty, List.nil_append] at whole
      rw [whole, Text.eq_append_of_breakOnLast? found]
      simp
    rw [lineStart, Text.findLast?, notFound, empty]
    rfl
  · have found : text.breakOnLast? ['\n'] = some (front, text.lastLine) := by
      conv => lhs; rw [← whole, ends, List.append_assoc]
      exact breakOnLast?_singleton (newline_notMem_lastLine text) front
    rw [lineStart, Text.findLast?, found, ends, Text.byteSize_append]
    simp [single]

/-- The indentation in front of a character that is no blank is that of the line up to it. -/
theorem indentAt_eq
    {c : Char}
    (solid : Character.isIndent c = false)
    (before behind : Text) :
    indentAt (before ++ c :: behind) before.byteSize = some before.lastLine.indentation := by
  have line_eq : before ++ c :: behind =
      before.beforeLastLine ++ (before.lastLine ++ c :: behind) := by
    rw [← List.append_assoc, before.beforeLastLine_append_lastLine]
  have parts : before.lastLine ++ c :: behind = before.lastLine.indentation ++
      (before.lastLine ++ c :: behind).dropWhile Character.isIndent := by
    rw [Text.indentation, ← Text.takeWhile_append_cons solid before.lastLine behind,
      List.takeWhile_append_dropWhile]
  have width := minus?_byteSize_append before.lastLine.indentation
    ((before.lastLine ++ c :: behind).dropWhile Character.isIndent)
  rw [← parts] at width
  rw [indentAt, Text.sliceTo?_append]
  simp only [Option.bind_eq_bind, Option.bind_some, lineStart_eq]
  rw [line_eq, Text.sliceFrom?_append]
  simp only [Option.bind_some, width]
  rw [parts, Text.sliceTo?_append]

/-! ## Wrapping -/

end Offset
end OutputThreading
