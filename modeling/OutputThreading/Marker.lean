import OutputThreading.Keyword

/-!
# Block markers

Two kinds of markers shape the blocks of a text: an opener, which is the opening braces and a
keyword that ends where a word ends, and the end statement.  An opener marks only the braces and
the keyword; what else its statement holds does not matter.
-/

namespace OutputThreading

/-- A marker of the block structure. -/
inductive Marker where
  /-- A keyword opens a block. -/
  | opens (keyword : Keyword)
  /-- An end statement closes the innermost open block. -/
  | closes
deriving Repr, DecidableEq

namespace Marker

/-- The statement that closes a block. -/
def closer : Text :=
  Statement.opening ++ "end".toList ++ Statement.closing

/-- The text of a marker. -/
def text : Marker → Text
  | .opens keyword => keyword.opener
  | .closes => closer

/-- No word goes on at the start of the text. -/
def startsOutsideWord (text : Text) : Bool :=
  match text with
  | [] => true
  | c :: _ => !Character.isWord c

/-- Read the opener of one keyword at the start of a text. -/
def readOpener? (text : Text) (keyword : Keyword) : Option (Marker × Text) := do
  let rest ← text.after? keyword.opener
  if startsOutsideWord rest then some (.opens keyword, rest) else none

/-- Read the end statement at the start of a text. -/
def readCloser? (text : Text) : Option (Marker × Text) :=
  (text.after? closer).map fun rest => (.closes, rest)

/-- Read a marker at the start of a text. -/
def read? (text : Text) : Option (Marker × Text) :=
  (Keyword.all.findSome? (readOpener? text)).or (readCloser? text)

theorem eq_text_append_of_readOpener?
    {text rest : Text}
    {keyword : Keyword}
    {marker : Marker}
    (found : readOpener? text keyword = some (marker, rest)) :
    text = marker.text ++ rest := by
  simp only [readOpener?, Option.bind_eq_bind, Option.bind_eq_some_iff] at found
  obtain ⟨after, opened, found⟩ := found
  simp only [Option.ite_none_right_eq_some, Option.some.injEq, Prod.mk.injEq] at found
  obtain ⟨_, rfl, rfl⟩ := found
  exact Text.eq_append_of_after? opened

theorem eq_text_append_of_readCloser?
    {text rest : Text}
    {marker : Marker}
    (found : readCloser? text = some (marker, rest)) :
    text = marker.text ++ rest := by
  simp only [readCloser?, Option.map_eq_some_iff, Prod.mk.injEq] at found
  obtain ⟨after, closed, rfl, rfl⟩ := found
  exact Text.eq_append_of_after? closed

theorem eq_text_append_of_read?
    {text rest : Text}
    {marker : Marker}
    (found : read? text = some (marker, rest)) :
    text = marker.text ++ rest := by
  rw [read?, Option.or_eq_some_iff] at found
  rcases found with opened | ⟨_, closed⟩
  · obtain ⟨keyword, _, opened⟩ := List.exists_of_findSome?_eq_some opened
    exact eq_text_append_of_readOpener? opened
  · exact eq_text_append_of_readCloser? closed

theorem text_ne_nil (marker : Marker) : marker.text ≠ [] := by
  cases marker <;> simp [text, Keyword.opener, closer, Statement.opening]

/-- Markers as a form of text. -/
def form : Form Marker where
  read? := read?
  write := text
  write_ne_nil := text_ne_nil
  eq_write_append := eq_text_append_of_read?

end Marker
end OutputThreading
