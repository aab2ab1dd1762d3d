import OutputThreading.Error
import OutputThreading.Program.Basic
import OutputThreading.Template.Promotion

/-!
# Extraction

Extraction takes the template definitions out of a source text.  A definition is the block of a
`define` opener that is completed by a quoted name and closing braces; it ends where its block ends,
and one line break right behind it goes with it.  Of several definitions of a name the first one
counts, but all are taken out.
-/

namespace OutputThreading
namespace Program

/-- The name in the definition head whose text follows the opener. -/
def headName? (text : Text) : Option Text := do
  let behindQuote ← text.trimStart.after? ['"']
  let (name, behindName) ← behindQuote.breakOn? ['"']
  let _ ← behindName.trimStart.after? Statement.closing
  if text.leadingSpace = [] ∨ name = [] then none else some name

/-- The name of the template whose definition starts with a marker, when the pieces follow it. -/
def definedName? (marker : Marker) (pieces : List (Piece Marker)) : Option Text :=
  match marker with
  | .opens .define => headName? (Marker.form.join pieces)
  | _ => none

/-- A definition with the signature that its text shows. -/
def definition (name text : Text) (line : Nat) : Template :=
  { name, text, line, signature := Signature.ofText text }

/-- The pieces without a leading line break. -/
def dropBreak : List (Piece Marker) → List (Piece Marker)
  | .char '\n' :: pieces => pieces
  | pieces => pieces

theorem length_dropBreak_le (pieces : List (Piece Marker)) :
    (dropBreak pieces).length ≤ pieces.length := by
  rw [dropBreak.eq_def]
  split <;> simp

/-- The number of line breaks that `dropBreak` takes off. -/
def leadingBreaks : List (Piece Marker) → Nat
  | .char '\n' :: _ => 1
  | _ => 0

/-- Put text in front of the main text. -/
def prependMain (front : Text) (program : Program) : Program :=
  { program with main := front ++ program.main }

/-- Put a template in front of the others. -/
def prependTemplate (template : Template) (program : Program) : Program :=
  { program with templates := template :: program.templates }

/-- The part of the pieces behind a closed block is no longer than the pieces. -/
theorem length_le_of_close
    {line : Nat}
    {opened : OpenBlock}
    {pieces inside behind : List (Piece Marker)}
    (closed : Block.close line opened [] pieces = .ok (inside, behind)) :
    behind.length ≤ pieces.length := by
  rw [← Block.append_eq_of_close closed, List.length_append]
  omega

/-- Take every definition out of a text, given by its pieces from `line` on. -/
def takeDefinitions (line : Nat) (pieces : List (Piece Marker)) : Except CompileError Program :=
  match pieces with
  | [] => .ok ⟨[], []⟩
  | .char c :: pieces => do
      let program ← takeDefinitions (Block.lineAfter line c) pieces
      return program.prependMain [c]
  | .phrase marker :: pieces =>
      match definedName? marker pieces with
      | none => do
          let program ← takeDefinitions line pieces
          return program.prependMain marker.text
      | some name =>
          match _closed : Block.close line ⟨.define, line⟩ [] pieces with
          | .error block => .error (.unclosedBlock block)
          | .ok (inside, behind) => do
              let body := Marker.form.join inside
              let program ← takeDefinitions (line + body.breaks + leadingBreaks behind)
                (dropBreak behind)
              return program.prependTemplate (definition name (marker.text ++ body) line)
termination_by pieces.length
decreasing_by
  · simp
  · simp
  · have := length_le_of_close _closed
    have := length_dropBreak_le behind
    simp only [List.length_cons]
    omega

/-- A definition whose block is left open cannot be taken out. -/
theorem takeDefinitions_cons_of_error
    {line : Nat}
    {marker : Marker}
    {pieces : List (Piece Marker)}
    {name : Text}
    (named : definedName? marker pieces = some name)
    {block : OpenBlock}
    (unclosed : Block.close line ⟨.define, line⟩ [] pieces = .error block) :
    takeDefinitions line (.phrase marker :: pieces) = .error (.unclosedBlock block) := by
  rw [takeDefinitions, named]
  simp only
  split
  next found =>
    rw [unclosed] at found
    rw [Except.error.inj found]
  next closed =>
    rw [unclosed] at closed
    cases closed

/-- A definition is taken out with its block and the line break behind it. -/
theorem takeDefinitions_cons_of_ok
    {line : Nat}
    {marker : Marker}
    {pieces : List (Piece Marker)}
    {name : Text}
    (named : definedName? marker pieces = some name)
    {inside behind : List (Piece Marker)}
    (closed : Block.close line ⟨.define, line⟩ [] pieces = .ok (inside, behind)) :
    takeDefinitions line (.phrase marker :: pieces) = do
      let program ← takeDefinitions
        (line + (Marker.form.join inside).breaks + leadingBreaks behind) (dropBreak behind)
      return program.prependTemplate
        (definition name (marker.text ++ Marker.form.join inside) line) := by
  rw [takeDefinitions, named]
  simp only
  split
  next unclosed =>
    rw [closed] at unclosed
    cases unclosed
  next found =>
    obtain ⟨rfl, rfl⟩ := Prod.mk.inj (Except.ok.inj (closed.symm.trans found))
    rfl

/-- Split a source text into a program. -/
def ofText (text : Text) : Except CompileError Program := do
  let program ← takeDefinitions 1 (Marker.form.split text)
  return { program with templates := program.templates.keepFirst.promote }

end Program
end OutputThreading
