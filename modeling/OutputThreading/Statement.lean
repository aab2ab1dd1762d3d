import OutputThreading.Text.Form

/-!
# Statements

A statement of a template stands between double braces on one line.  It ends at the first double
closing brace, and its interior may hold anything else but a line break.
-/

namespace OutputThreading
namespace Statement

/-- The braces that open a statement. -/
def opening : Text := ['{', '{']

/-- The braces that close a statement. -/
def closing : Text := ['}', '}']

end Statement

/-- A statement, given by the text between its braces. -/
structure Statement where
  /-- The text between the braces. -/
  interior : Text
deriving Repr, DecidableEq

namespace Statement

/-- A statement with its braces. -/
def text (statement : Statement) : Text :=
  opening ++ statement.interior ++ closing

/-- Read a statement at the start of a text. -/
def read? (text : Text) : Option (Statement × Text) := do
  let inside ← text.after? opening
  let (interior, rest) ← inside.breakOn? closing
  if '\n' ∈ interior then none else some (⟨interior⟩, rest)

theorem eq_text_append_of_read?
    {text rest : Text}
    {statement : Statement}
    (found : read? text = some (statement, rest)) :
    text = statement.text ++ rest := by
  simp only [read?, Option.bind_eq_bind, Option.bind_eq_some_iff] at found
  obtain ⟨inside, opened, ⟨interior, after⟩, closed, found⟩ := found
  simp only [Option.ite_none_left_eq_some, Option.some.injEq, Prod.mk.injEq] at found
  obtain ⟨_, rfl, rfl⟩ := found
  simp [Statement.text, Text.eq_append_of_after? opened, Text.eq_append_of_breakOn? closed]

/-- Statements as a form of text. -/
def form : Form Statement where
  read? := read?
  write := text
  write_ne_nil statement := by simp [text, opening]
  eq_write_append := eq_text_append_of_read?

/-- The interior of a statement that was read holds no line break. -/
theorem newline_notMem_interior_of_read?
    {text rest : Text}
    {statement : Statement}
    (found : read? text = some (statement, rest)) :
    '\n' ∉ statement.interior := by
  simp only [read?, Option.bind_eq_bind, Option.bind_eq_some_iff] at found
  obtain ⟨inside, opened, ⟨interior, after⟩, closed, found⟩ := found
  simp only [Option.ite_none_left_eq_some, Option.some.injEq, Prod.mk.injEq] at found
  obtain ⟨noBreak, rfl, rfl⟩ := found
  exact noBreak

end Statement
end OutputThreading
