import OutputThreading.Proofs.Call.Setup
import OutputThreading.Proofs.Statement.Kinds

/-!
# Collecting prints

In a delimited text every print becomes the statement that appends its expression, and all other
statements stay as they are (`Text.collectPrints_join`).
-/

namespace OutputThreading
namespace Statement

/-- A print is its word, white space and its expression. -/
theorem interior_of_print?
    {statement : Statement}
    {print : Print}
    (found : statement.print? = some print) :
    statement.interior = "print".toList ++ print.spacing ++ print.expression ∧
      ∀ c ∈ print.spacing, Character.isSpace c = true := by
  simp only [print?, Option.bind_eq_bind, Option.bind_eq_some_iff] at found
  obtain ⟨behind, word, found⟩ := found
  simp only [Option.ite_none_left_eq_some, Option.some.injEq] at found
  obtain ⟨_, rfl⟩ := found
  refine ⟨?_, fun c => Text.isSpace_of_mem_leadingSpace⟩
  rw [Text.eq_append_of_after? word, List.append_assoc, Text.leadingSpace_append_trimStart]

/-- What collecting prints makes of a statement. -/
def collected (accumulator : Text) (statement : Statement) : Statement :=
  statement.print?.elim statement fun print => Accumulator.appending accumulator print.expression

theorem isPlain_appending
    {accumulator : Text}
    (isName : accumulator.IsName)
    {statement : Statement}
    (plain : statement.IsPlain)
    {expression : Text}
    (suffix : expression <:+ statement.interior) :
    (Accumulator.appending accumulator expression).IsPlain := by
  refine isPlain_append (Accumulator.isFlat_appendHead isName)
    (Accumulator.appendHead_ne_nil accumulator) ?_ ?_
  · intro inside
    exact plain.opensOnce (List.infix_cons (inside.trans suffix.isInfix))
  · intro inside
    obtain ⟨front, whole⟩ := suffix
    refine plain.closesOnce (inside.trans ⟨front, [], ?_⟩)
    simp [← whole]

theorem isPlain_collected
    {accumulator : Text}
    (isName : accumulator.IsName)
    {statement : Statement}
    (plain : statement.IsPlain) :
    (statement.collected accumulator).IsPlain := by
  rw [collected]
  cases found : statement.print? with
  | none => exact plain
  | some print =>
      refine isPlain_appending isName plain ?_
      exact ⟨_, (interior_of_print? found).1.symm⟩

theorem isFlat_collected
    {accumulator : Text}
    (isName : accumulator.IsName)
    {statement : Statement}
    (flat : statement.interior.IsFlat) :
    (statement.collected accumulator).interior.IsFlat := by
  rw [collected]
  cases found : statement.print? with
  | none => exact flat
  | some print =>
      rw [Option.elim_some, Accumulator.appending, Text.isFlat_append_iff]
      refine ⟨Accumulator.isFlat_appendHead isName, flat.of_infix ?_⟩
      exact ⟨_, [], by rw [(interior_of_print? found).1, List.append_nil]⟩

end Statement

/-- Prints of a delimited text are collected statement by statement. -/
theorem Text.collectPrints_join
    {pieces : List (Piece Statement)}
    (delimited : Statement.Delimited pieces)
    (accumulator : Text) :
    (Statement.form.join pieces).collectPrints accumulator =
      Statement.form.join (pieces.map (Piece.map (Statement.collected accumulator))) := by
  rw [collectPrints, Print.form_isKind.replace_join _ delimited, Form.join, List.flatMap_map]
  congr 1
  funext piece
  cases piece with
  | char c => rfl
  | phrase statement =>
      rw [Piece.text_phrase, Piece.map, Piece.text_phrase, Statement.collected]
      cases statement.print? <;> rfl

end OutputThreading
