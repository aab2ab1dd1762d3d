import OutputThreading.Text.Form

/-!
# Comments

A comment runs from its opening mark to the first closing mark behind it and may span lines.
Erasing a comment keeps its line breaks, so that everything else stays on its line.
-/

namespace OutputThreading

/-- A comment, given by the text between its marks. -/
structure Comment where
  /-- The text between the marks. -/
  body : Text
deriving Repr, DecidableEq

namespace Comment

/-- The mark that opens a comment. -/
def opening : Text := ['/', '*']

/-- The mark that closes a comment. -/
def closing : Text := ['*', '/']

/-- A comment with its marks. -/
def text (comment : Comment) : Text :=
  opening ++ comment.body ++ closing

/-- Read a comment at the start of a text. -/
def read? (text : Text) : Option (Comment × Text) := do
  let inside ← text.after? opening
  let (body, rest) ← inside.breakOn? closing
  some (⟨body⟩, rest)

theorem eq_text_append_of_read?
    {text rest : Text}
    {comment : Comment}
    (found : read? text = some (comment, rest)) :
    text = comment.text ++ rest := by
  simp only [read?, Option.bind_eq_bind, Option.bind_eq_some_iff] at found
  obtain ⟨inside, opened, ⟨body, after⟩, closed, found⟩ := found
  simp only [Option.some.injEq, Prod.mk.injEq] at found
  obtain ⟨rfl, rfl⟩ := found
  simp [Comment.text, Text.eq_append_of_after? opened, Text.eq_append_of_breakOn? closed]

/-- Comments as a form of text. -/
def form : Form Comment where
  read? := read?
  write := text
  write_ne_nil comment := by simp [text, opening]
  eq_write_append := eq_text_append_of_read?

/-- The line breaks of a comment. -/
def lineBreaks (comment : Comment) : Text :=
  comment.body.filter (· = '\n')

end Comment

namespace Text

/-- Erase every comment but its line breaks. -/
def eraseComments (text : Text) : Text :=
  Comment.form.replace Comment.lineBreaks text

end Text
end OutputThreading
