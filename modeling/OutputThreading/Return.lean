import OutputThreading.Accumulator

/-!
# Return statements

A return statement is the word `return`, bare or followed by white space and an expression.  The
white space around the expression may run over several lines, the expression may not.  In a template
that collects output, a bare return hands back the accumulator and a valued return hands back the
accumulator paired with the value.
-/

namespace OutputThreading

/-- A return statement; it is bare when its expression is empty. -/
structure Return where
  /-- The white space behind the word `return`. -/
  spacing : Text
  /-- The returned expression. -/
  expression : Text
  /-- The white space behind the expression. -/
  trailing : Text
deriving Repr, DecidableEq

namespace Return

/-- The text in front of the white space of a return statement. -/
def opener : Text :=
  Statement.opening ++ "return".toList

/-- A return statement with its braces. -/
def text (statement : Return) : Text :=
  opener ++ statement.spacing ++ statement.expression ++ statement.trailing ++ Statement.closing

/-- The return statement without a value. -/
def bare : Return := ⟨[], [], []⟩

/-- A return hands back a value. -/
def isValued (statement : Return) : Bool :=
  !statement.expression.isEmpty

/-- Read a return statement at the start of a text. -/
def read? (text : Text) : Option (Return × Text) := do
  let inside ← text.after? opener
  let (value, rest) ← inside.trimStart.breakOn? Statement.closing
  if inside.leadingSpace = [] ∧ value ≠ [] ∨ '\n' ∈ value.trimEnd then none
  else some (⟨inside.leadingSpace, value.trimEnd, value.trailingSpace⟩, rest)

theorem eq_text_append_of_read?
    {text rest : Text}
    {statement : Return}
    (found : read? text = some (statement, rest)) :
    text = statement.text ++ rest := by
  simp only [read?, Option.bind_eq_bind, Option.bind_eq_some_iff] at found
  obtain ⟨inside, opened, ⟨value, after⟩, closed, found⟩ := found
  simp only [Option.ite_none_left_eq_some, Option.some.injEq, Prod.mk.injEq] at found
  obtain ⟨_, rfl, rfl⟩ := found
  have parts : inside = inside.leadingSpace ++ (value ++ Statement.closing ++ after) := by
    rw [← Text.eq_append_of_breakOn? closed, Text.leadingSpace_append_trimStart]
  rw [Text.eq_append_of_after? opened]
  conv => lhs; rw [parts, ← Text.trimEnd_append_trailingSpace value]
  simp [Return.text]

/-- Return statements as a form of text. -/
def form : Form Return where
  read? := read?
  write := text
  write_ne_nil statement := by simp [text, opener, Statement.opening]
  eq_write_append := eq_text_append_of_read?

/-- The statement that a return becomes in a template with an accumulator. -/
def withOutput (accumulator : Text) (statement : Return) : Text :=
  let value :=
    if statement.isValued then Accumulator.pair accumulator statement.expression else accumulator
  (Statement.mk ("return ".toList ++ value)).text

end Return

namespace Text

/-- Let every return hand back the accumulator, paired with the returned value if there is one. -/
def returnOutput (text accumulator : Text) : Text :=
  Return.form.replace (Return.withOutput accumulator) text

end Text
end OutputThreading
