import OutputThreading.Accumulator

/-!
# Print statements

A print statement is the word `print`, white space and an expression between double braces.  The
white space may run over several lines, the expression may not.  Prints are either collected in the
accumulator or reduced to their expression.
-/

namespace OutputThreading

/-- A print statement. -/
structure Print where
  /-- The white space behind the word `print`. -/
  spacing : Text
  /-- The printed expression. -/
  expression : Text
deriving Repr, DecidableEq

namespace Print

/-- The text in front of the white space of a print statement. -/
def opener : Text :=
  Statement.opening ++ "print".toList

/-- A print statement with its braces. -/
def text (print : Print) : Text :=
  opener ++ print.spacing ++ print.expression ++ Statement.closing

/-- Read a print statement at the start of a text. -/
def read? (text : Text) : Option (Print × Text) := do
  let inside ← text.after? opener
  let (expression, rest) ← inside.trimStart.breakOn? Statement.closing
  if inside.leadingSpace = [] ∨ '\n' ∈ expression then none
  else some (⟨inside.leadingSpace, expression⟩, rest)

theorem eq_text_append_of_read?
    {text rest : Text}
    {print : Print}
    (found : read? text = some (print, rest)) :
    text = print.text ++ rest := by
  simp only [read?, Option.bind_eq_bind, Option.bind_eq_some_iff] at found
  obtain ⟨inside, opened, ⟨expression, after⟩, closed, found⟩ := found
  simp only [Option.ite_none_left_eq_some, Option.some.injEq, Prod.mk.injEq] at found
  obtain ⟨_, rfl, rfl⟩ := found
  have parts : inside = inside.leadingSpace ++ (expression ++ Statement.closing ++ after) := by
    rw [← Text.eq_append_of_breakOn? closed, Text.leadingSpace_append_trimStart]
  rw [Text.eq_append_of_after? opened]
  conv => lhs; rw [parts]
  simp [Print.text]

/-- Print statements as a form of text. -/
def form : Form Print where
  read? := read?
  write := text
  write_ne_nil print := by simp [text, opener, Statement.opening]
  eq_write_append := eq_text_append_of_read?

end Print

namespace Text

/-- Turn every print into an append to the accumulator. -/
def collectPrints (text accumulator : Text) : Text :=
  Print.form.replace (fun print => Accumulator.append accumulator print.expression) text

/-- Turn every print into the statement of its expression alone. -/
def unwrapPrints (text : Text) : Text :=
  Print.form.replace (fun print => (Statement.mk print.expression).text) text

end Text
end OutputThreading
