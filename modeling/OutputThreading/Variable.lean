import OutputThreading.Text.Form

/-!
# Variables

A variable is a dollar sign and the word behind it, as long as that word goes.
-/

namespace OutputThreading

/-- A variable, given by its name without the dollar sign. -/
structure Variable where
  /-- The word behind the dollar sign. -/
  name : Text
deriving Repr, DecidableEq

namespace Variable

/-- A variable with its dollar sign. -/
def text (token : Variable) : Text :=
  '$' :: token.name

/-- Read a variable at the start of a text. -/
def read? (text : Text) : Option (Variable × Text) := do
  let rest ← text.after? ['$']
  let name := rest.takeWhile Character.isWord
  if name = [] then none else some (⟨name⟩, rest.dropWhile Character.isWord)

theorem eq_text_append_of_read?
    {text rest : Text}
    {token : Variable}
    (found : read? text = some (token, rest)) :
    text = token.text ++ rest := by
  simp only [read?, Option.bind_eq_bind, Option.bind_eq_some_iff] at found
  obtain ⟨after, dollar, found⟩ := found
  simp only [Option.ite_none_left_eq_some, Option.some.injEq, Prod.mk.injEq] at found
  obtain ⟨_, rfl, rfl⟩ := found
  simp [Variable.text, Text.eq_append_of_after? dollar, List.takeWhile_append_dropWhile]

/-- Variables as a form of text. -/
def form : Form Variable where
  read? := read?
  write := text
  write_ne_nil token := by simp [text]
  eq_write_append := eq_text_append_of_read?

end Variable

namespace Text

/-- The variables of a text, with their dollar signs, from left to right. -/
def variableNames (text : Text) : List Text :=
  (Variable.form.phrases text).map Variable.text

end Text
end OutputThreading
