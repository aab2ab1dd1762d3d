import OutputThreading.Statement

/-!
# Compact layout

White space between two statements is layout.  Compacting a text removes it, together with the white
space at the end.
-/

namespace OutputThreading

/-- The end of a statement and the start of the next one with only white space in between. -/
structure Seam where
  /-- The white space between the two statements. -/
  spacing : Text
deriving Repr, DecidableEq

namespace Seam

/-- A seam with its braces. -/
def text (seam : Seam) : Text :=
  Statement.closing ++ seam.spacing ++ Statement.opening

/-- A seam without white space. -/
def tight : Seam := ⟨[]⟩

/-- Read a seam at the start of a text. -/
def read? (text : Text) : Option (Seam × Text) := do
  let inside ← text.after? Statement.closing
  let rest ← inside.trimStart.after? Statement.opening
  some (⟨inside.leadingSpace⟩, rest)

theorem eq_text_append_of_read?
    {text rest : Text}
    {seam : Seam}
    (found : read? text = some (seam, rest)) :
    text = seam.text ++ rest := by
  simp only [read?, Option.bind_eq_bind, Option.bind_eq_some_iff] at found
  obtain ⟨inside, closed, after, opened, found⟩ := found
  simp only [Option.some.injEq, Prod.mk.injEq] at found
  obtain ⟨rfl, rfl⟩ := found
  have parts : inside = inside.leadingSpace ++ (Statement.opening ++ after) := by
    rw [← Text.eq_append_of_after? opened, Text.leadingSpace_append_trimStart]
  rw [Text.eq_append_of_after? closed]
  conv => lhs; rw [parts]
  simp [Seam.text]

/-- Seams as a form of text. -/
def form : Form Seam where
  read? := read?
  write := text
  write_ne_nil seam := by simp [text, Statement.closing]
  eq_write_append := eq_text_append_of_read?

end Seam

namespace Text

/-- Remove the white space between statements and at the end of the text. -/
def compact (text : Text) : Text :=
  (Seam.form.replace (fun _ => Seam.tight.text) text).trimEnd

end Text
end OutputThreading
