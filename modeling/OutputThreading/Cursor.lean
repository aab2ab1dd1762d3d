import OutputThreading.Block
import OutputThreading.Call.Basic

/-!
# Places in a text

A place is given from outside as a number of bytes.  Not every number is a place: it may lie behind
the end or inside of a character.  A cursor is a place that was found, as the text before it and the
text behind it.
-/

namespace OutputThreading

/-- A half-open range of byte offsets. -/
structure Span where
  /-- The offset of the first byte. -/
  start : Nat
  /-- The offset behind the last byte. -/
  stop : Nat
deriving Repr, DecidableEq

/-- The bytes of a phrase that follows some text. -/
def Span.behind (before phrase : Text) : Span :=
  ⟨before.byteSize, before.byteSize + phrase.byteSize⟩

namespace Text

/-- Cut a text at a byte offset, if a character starts or the text ends there. -/
def cut? : (text : Text) → (offset : Nat) → Option (Text × Text)
  | text, 0 => some ([], text)
  | [], _ + 1 => none
  | c :: rest, offset + 1 =>
      if c.utf8Size ≤ offset + 1 then
        (cut? rest (offset + 1 - c.utf8Size)).map fun (before, behind) => (c :: before, behind)
      else none

/-- The line of a byte offset, counted from one; offsets behind the end count as the end. -/
def lineAt : (text : Text) → (offset : Nat) → Nat
  | [], _ => 1
  | c :: rest, offset =>
      if c.utf8Size ≤ offset then
        (if c = '\n' then 1 else 0) + lineAt rest (offset - c.utf8Size)
      else 1

end Text

/-- A place in a text. -/
structure Cursor where
  /-- The text before the place. -/
  before : Text
  /-- The text behind the place. -/
  behind : Text
deriving Repr, DecidableEq

namespace Cursor

/-- The place at a byte offset of a text. -/
def at? (text : Text) (offset : Nat) : Option Cursor :=
  (text.cut? offset).map fun (before, behind) => ⟨before, behind⟩

/-- The byte offset of the place. -/
def offset (cursor : Cursor) : Nat :=
  cursor.before.byteSize

/-- The line of the place, counted from one. -/
def line (cursor : Cursor) : Nat :=
  1 + cursor.before.breaks

/-- The indentation of the line that the place is on. -/
def indentation (cursor : Cursor) : Text :=
  Text.indentation (cursor.before.lastLine ++ cursor.behind)

/-- The markers behind the place, each with the bytes it takes. -/
def markers (cursor : Cursor) : List (Marker × Span) :=
  (Marker.form.placed cursor.offset cursor.behind).map fun (start, marker) =>
    (marker, ⟨start, start + marker.text.byteSize⟩)

/-- A marker takes the bytes of its own text, behind everything in front of it. -/
theorem markers_eq_map_occurrences (cursor : Cursor) :
    cursor.markers =
      (Marker.form.occurrences cursor.behind).map fun occurrence =>
        (occurrence.phrase,
          Span.behind (cursor.before ++ occurrence.before) occurrence.phrase.text) := by
  simp [markers, Form.placed_eq_map_occurrences, offset, Span.behind]

/-- The bytes of the block that opens at the place, if one does. -/
def block? (cursor : Cursor) : Except OpenBlock (Option Span) := do
  let block ← Block.leading? cursor.line cursor.behind
  return block.map (Span.behind cursor.before)

/-- The offset where an open block ends, when its opener ends at the place. -/
def blockEnd (cursor : Cursor) (opened : OpenBlock) : Except OpenBlock Nat := do
  let remainder ← Block.remainder cursor.line opened cursor.behind
  return cursor.offset + remainder.byteSize

end Cursor

namespace CallSite

/-- The bytes of the statement. -/
def span (site : CallSite) : Span :=
  Span.behind site.statement.before site.statement.phrase.text

/-- The bytes of the call. -/
def callSpan (site : CallSite) : Span :=
  Span.behind (site.statement.before ++ Statement.opening ++ site.call.before)
    site.call.phrase.text

end CallSite
end OutputThreading
