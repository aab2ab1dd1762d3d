import OutputThreading.Proofs.Line

/-!
# Wrapping lines twice

Wrapping ends every line with a line break, so wrapping again reads the same lines back, each less a
carriage return at its end (`Text.wrapLines_wrapLines`).  A line that was bare ends in its closing
braces by then.  Blank lines and lines that were written as statements are copied as they stand, and
one that ends in a carriage return loses it the second time (`Text.wrapLines_idempotent_iff`).
-/

namespace OutputThreading
namespace Text

/-! ## Lines read back -/

/-- Lines that are written one after the other are read back, each less its carriage return. -/
theorem lines_flatMap_concat_newline
    {rows : List Text}
    (inline : ∀ row ∈ rows, '\n' ∉ row) :
    lines (rows.flatMap (· ++ ['\n'])) = rows.map dropReturn := by
  induction rows with
  | nil => rfl
  | cons row rows inductionHypothesis =>
      rw [List.forall_mem_cons] at inline
      rw [List.flatMap_cons, List.append_assoc, List.singleton_append,
        lines_append_newline inline.1, inductionHypothesis inline.2, List.map_cons]

/-- Lines can be told from the text they are written to. -/
theorem flatMap_concat_newline_inj
    {rows others : List Text}
    (inline : ∀ row ∈ rows, '\n' ∉ row)
    (othersInline : ∀ row ∈ others, '\n' ∉ row) :
    rows.flatMap (· ++ ['\n']) = others.flatMap (· ++ ['\n']) ↔ rows = others := by
  refine ⟨fun same => ?_, congrArg _⟩
  induction rows generalizing others with
  | nil =>
      cases others with
      | nil => rfl
      | cons other others => simp at same
  | cons row rows inductionHypothesis =>
      cases others with
      | nil => simp at same
      | cons other others =>
          rw [List.forall_mem_cons] at inline othersInline
          simp only [List.flatMap_cons, List.append_assoc, List.singleton_append] at same
          obtain ⟨rfl, rest⟩ := eq_and_eq_of_append_cons_eq inline.1 othersInline.1 same
          rw [inductionHypothesis inline.2 othersInline.2 rest]

/-! ## Lines that are wrapped already -/

/-- A wrapped line is blank or written as a statement. -/
theorem isBlank_or_isWrapped_wrapLine (line : Text) :
    line.wrapLine.isBlank = true ∨ line.wrapLine.isWrapped = true := by
  cases blank : line.isBlank with
  | true => exact .inl (by rwa [wrapLine_of_isBlank blank])
  | false =>
      right
      cases wrapped : line.isWrapped with
      | true => rwa [wrapLine_of_isWrapped wrapped]
      | false =>
          have spacing : ∀ c ∈ line.leadingSpace, Character.isSpace c = true :=
            fun c => isSpace_of_mem_leadingSpace
          have nothing : ∀ c ∈ ([] : Text), Character.isSpace c = true := by simp
          have trimmed := trim_append_append spacing nothing (Statement.mk line.trim).text
          rw [List.append_nil, trim_text] at trimmed
          rw [wrapLine_of_bare blank wrapped, isWrapped_iff]
          exact ⟨line.trim, trimmed⟩

/-- A wrapped line that has lost its carriage return is not wrapped again. -/
theorem wrapLine_dropReturn_wrapLine (line : Text) :
    line.wrapLine.dropReturn.wrapLine = line.wrapLine.dropReturn := by
  have same := line.wrapLine.trim_dropReturn
  rcases line.isBlank_or_isWrapped_wrapLine with blank | wrapped
  · rw [← trim_eq_nil_iff, ← same, trim_eq_nil_iff] at blank
    exact wrapLine_of_isBlank blank
  · rw [isWrapped_iff, ← same, ← isWrapped_iff] at wrapped
    exact wrapLine_of_isWrapped wrapped

/-- Wrapping a second time takes a carriage return off the end of every line. -/
theorem wrapLines_wrapLines (text : Text) :
    text.wrapLines.wrapLines =
      ((text.lines.map wrapLine).map dropReturn).flatMap (· ++ ['\n']) := by
  obtain ⟨wrapped_eq, inline⟩ := text.wrapLines_eq_flatMap
  have settled : ((text.lines.map wrapLine).map dropReturn).map wrapLine =
      (text.lines.map wrapLine).map dropReturn := by
    simp [wrapLine_dropReturn_wrapLine]
  rw [(wrapLines_eq_flatMap _).1, wrapped_eq, lines_flatMap_concat_newline inline, settled]

/-- A bare line does not end in a carriage return once it is wrapped. -/
theorem return_suffix_wrapLine_iff (line : Text) :
    ['\r'] <:+ line.wrapLine ↔
      (line.isBlank = true ∨ line.isWrapped = true) ∧ ['\r'] <:+ line := by
  cases blank : line.isBlank with
  | true => simp [wrapLine_of_isBlank blank]
  | false =>
      cases wrapped : line.isWrapped with
      | true => simp [wrapLine_of_isWrapped wrapped]
      | false =>
          have last : line.wrapLine =
              line.leadingSpace ++ '{' :: '{' :: (line.trim ++ ['}']) ++ ['}'] := by
            rw [wrapLine_of_bare blank wrapped, Statement.text_eq_concat, List.append_assoc]
          rw [last]
          constructor
          · rintro ⟨front, equal⟩
            exact absurd (List.append_inj' equal rfl).2 (by decide)
          · rintro ⟨kept | kept, -⟩ <;> cases kept

/-- Wrapping a text again changes nothing, unless a blank line or a line that is written as a
statement ends in a carriage return; every such line loses one. -/
theorem wrapLines_idempotent_iff (text : Text) :
    text.wrapLines.wrapLines =
        (text.lines.flatMap fun line => line.wrapLine.dropReturn ++ ['\n']) ∧
      (text.wrapLines.wrapLines = text.wrapLines ↔
        ∀ line ∈ text.lines, line.isBlank = true ∨ line.isWrapped = true → ¬['\r'] <:+ line) := by
  obtain ⟨wrapped_eq, inline⟩ := text.wrapLines_eq_flatMap
  have inlineAgain : ∀ row ∈ (text.lines.map wrapLine).map dropReturn, '\n' ∉ row := by
    rw [List.forall_mem_map]
    exact fun row member newline => inline row member (mem_of_mem_dropReturn newline)
  refine ⟨by rw [wrapLines_wrapLines, List.map_map, List.flatMap_map]; rfl, ?_⟩
  calc text.wrapLines.wrapLines = text.wrapLines
    _ ↔ (text.lines.map wrapLine).map dropReturn = text.lines.map wrapLine := by
        rw [wrapLines_wrapLines, wrapped_eq, flatMap_concat_newline_inj inlineAgain inline]
    _ ↔ ∀ line ∈ text.lines, line.wrapLine.dropReturn = line.wrapLine := by
        rw [List.map_map, List.map_inj_left]
        rfl
    _ ↔ ∀ line ∈ text.lines, line.isBlank = true ∨ line.isWrapped = true → ¬['\r'] <:+ line := by
        simp only [dropReturn_eq_self_iff, return_suffix_wrapLine_iff, not_and]

/-- A line of a single carriage return is blank, and gone the second time. -/
theorem wrapLines_not_idempotent :
    ¬∀ text : Text, text.wrapLines.wrapLines = text.wrapLines := by
  intro idempotent
  exact absurd (idempotent "\r\r\n".toList) (by decide +kernel)

end Text
end OutputThreading
