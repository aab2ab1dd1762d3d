import OutputThreading.Proofs.Comment
import OutputThreading.Proofs.Line
import OutputThreading.Proofs.Program.Errors

/-!
# Errors name lines of the source

Erasing comments keeps their line breaks, and wrapping makes one line out of each line.  So what a
line of the normalized text holds stands on the line of the same number in the source
(`Text.exists_line?_of_wrapLines_eq`), and reserved variables and blocks that are not closed are
reported on the lines of the source where they stand (`compile_errors_name_lines`).
-/

namespace OutputThreading

/-! ## Erased comments -/

namespace Comment

theorem lineBreaks_eq_filter (comment : Comment) :
    comment.lineBreaks = comment.text.filter (· = '\n') := by
  simp [lineBreaks, text, opening, closing]

/-- Erasing comments keeps the line breaks. -/
theorem breaks_flatMap_lineBreaks (pieces : List (Piece Comment)) :
    Text.breaks (pieces.flatMap (Piece.text lineBreaks)) = (form.join pieces).breaks := by
  induction pieces with
  | nil => rfl
  | cons piece pieces inductionHypothesis =>
      rw [List.flatMap_cons, Form.join_cons, Text.breaks_append, Text.breaks_append,
        inductionHypothesis]
      cases piece with
      | char c => rfl
      | phrase comment =>
          have kept : Text.breaks (comment.text.filter (· = '\n')) = comment.text.breaks :=
            List.count_filter (by decide)
          rw [Piece.text_phrase, lineBreaks_eq_filter, kept]
          rfl

end Comment

namespace Text

theorem breaks_eraseComments (text : Text) : text.eraseComments.breaks = text.breaks := by
  rw [eraseComments, Form.replace, Comment.breaks_flatMap_lineBreaks, Form.join_split]

/-- What stands outside of comments separates the text in front of it from the text behind it. -/
theorem eraseComments_eq_of_split_eq
    {text : Text}
    {front behind : List (Piece Comment)}
    {c : Char}
    (split_eq : Comment.form.split text = front ++ .char c :: behind) :
    text = Comment.form.join front ++ c :: Comment.form.join behind ∧
      text.eraseComments =
        (Comment.form.join front).eraseComments ++ c :: (Comment.form.join behind).eraseComments := by
  constructor
  · rw [← Comment.form.join_split text, split_eq, Form.join_append, Form.join_cons]
    rfl
  · have parts : Comment.form.split text = (front ++ [.char c]) ++ behind := by
      rw [split_eq, List.append_assoc, List.singleton_append]
    rw [eraseComments, eraseComments, eraseComments, Form.replace, Form.replace, Form.replace,
      Comment.split_join_front split_eq, Comment.form.split_join_of_split_eq_append parts, split_eq,
      List.flatMap_append, List.flatMap_cons]
    rfl

/-! ## Lines by number -/

/-- The line of the text with a number, counted from one. -/
def line? (text : Text) : (number : Nat) → Option Text
  | 0 => none
  | index + 1 => text.lines[index]?

theorem lines_return_newline (rest : Text) : lines ('\r' :: '\n' :: rest) = lines ('\n' :: rest) := by
  rw [lines, lines]

/-- A character in front of a text belongs to its first line, unless it is a carriage return in front
of a line break. -/
theorem lines_cons {c : Char} (noBreak : c ≠ '\n') (rest : Text) :
    lines (c :: rest) = (c :: rest.lines.headD []) :: rest.lines.tail ∨
      c = '\r' ∧ ∃ behind, rest = '\n' :: behind := by
  by_cases ends : c = '\r' ∧ ∃ behind, rest = '\n' :: behind
  · exact .inr ends
  · left
    rw [lines]
    · cases rest.lines <;> rfl
    · exact noBreak
    · intro behind isReturn rest_eq
      exact ends ⟨isReturn, behind, rest_eq⟩

/-- Each line of the first text is a part of the line with the same number in the second one. -/
def LinesWithin (first second : Text) : Prop :=
  ∀ (index : Nat) (line : Text), first.lines[index]? = some line →
    ∃ other : Text, second.lines[index]? = some other ∧ line.Sublist other

namespace LinesWithin

variable {first second : Text}

theorem refl (text : Text) : text.LinesWithin text :=
  fun _ line found => ⟨line, found, List.Sublist.refl line⟩

theorem headD_sublist (within : first.LinesWithin second) :
    (first.lines.headD []).Sublist (second.lines.headD []) := by
  cases lines_eq : first.lines with
  | nil => exact List.nil_sublist _
  | cons line others =>
      obtain ⟨other, found, sublist⟩ := within 0 line (by rw [lines_eq]; rfl)
      rw [← List.head?_eq_getElem?] at found
      rwa [List.headD_cons, List.headD_eq_head?_getD, found]

theorem cons_newline (within : first.LinesWithin second) :
    LinesWithin ('\n' :: first) ('\n' :: second) := by
  intro index line found
  rw [lines] at found ⊢
  cases index with
  | zero => exact ⟨[], rfl, by rw [← Option.some.inj found]⟩
  | succ index => exact within index line found

/-- A line of the second text may be longer. -/
theorem cons_right
    (within : first.LinesWithin second)
    {c : Char}
    (noBreak : c ≠ '\n') :
    first.LinesWithin (c :: second) := by
  rcases lines_cons noBreak second with longer | ⟨rfl, behind, rfl⟩
  · intro index line found
    obtain ⟨other, foundOther, sublist⟩ := within index line found
    rw [longer]
    cases index with
    | zero =>
        rw [← List.head?_eq_getElem?] at foundOther
        rw [List.headD_eq_head?_getD, foundOther]
        exact ⟨_, rfl, sublist.cons c⟩
    | succ index =>
        rw [← List.getElem?_tail] at foundOther
        exact ⟨other, foundOther, sublist⟩
  · intro index line found
    rw [lines_return_newline]
    exact within index line found

/-- The same character may stand in front of both texts, unless it is a carriage return and only the
second one goes on with a line break. -/
theorem cons_cons
    (within : first.LinesWithin second)
    (kept : ∀ behind, second = '\n' :: behind → ∃ behind, first = '\n' :: behind)
    (c : Char) :
    LinesWithin (c :: first) (c :: second) := by
  by_cases isBreak : c = '\n'
  · rw [isBreak]
    exact within.cons_newline
  rcases lines_cons isBreak first with longer | ⟨rfl, behind, rfl⟩
  · rcases lines_cons isBreak second with longerSecond | ⟨rfl, behind, rfl⟩
    · intro index line found
      rw [longer] at found
      rw [longerSecond]
      cases index with
      | zero =>
          rw [← Option.some.inj found]
          exact ⟨_, rfl, within.headD_sublist.cons_cons c⟩
      | succ index =>
          rw [List.getElem?_cons_succ, List.getElem?_tail] at found
          obtain ⟨other, foundOther, sublist⟩ := within (index + 1) line found
          rw [← List.getElem?_tail] at foundOther
          exact ⟨other, foundOther, sublist⟩
    · obtain ⟨behind, rfl⟩ := kept behind rfl
      intro index line found
      rw [lines_return_newline] at found ⊢
      exact within index line found
  · have unchanged := within.cons_right isBreak
    intro index line found
    rw [lines_return_newline] at found
    exact unchanged index line found

/-- Of the text in front of the second one, only the line breaks may be in front of the first. -/
theorem filter_append (within : first.LinesWithin second) (front : Text) :
    LinesWithin (front.filter (· = '\n') ++ first) (front ++ second) := by
  induction front with
  | nil => exact within
  | cons c front inductionHypothesis =>
      by_cases isBreak : c = '\n'
      · rw [List.filter_cons_of_pos (by simpa using isBreak), isBreak]
        exact inductionHypothesis.cons_newline
      · rw [List.filter_cons_of_neg (by simpa using isBreak)]
        exact inductionHypothesis.cons_right isBreak

end LinesWithin

/-- Pieces without their comments are within the lines of the pieces. -/
theorem linesWithin_join (pieces : List (Piece Comment)) :
    LinesWithin (pieces.flatMap (Piece.text Comment.lineBreaks)) (Comment.form.join pieces) := by
  induction pieces with
  | nil => exact .refl []
  | cons piece pieces inductionHypothesis =>
      cases piece with
      | char c =>
          refine inductionHypothesis.cons_cons (fun behind starts => ?_) c
          -- a line break at the start does not belong to a comment
          cases pieces with
          | nil => cases starts
          | cons next others =>
              cases next with
              | char d =>
                  obtain ⟨rfl, _⟩ := List.cons.inj starts
                  exact ⟨_, rfl⟩
              | phrase comment => exact absurd (List.cons.inj starts).1 (by decide)
      | phrase comment =>
          rw [List.flatMap_cons, Piece.text_phrase, Comment.lineBreaks_eq_filter]
          exact inductionHypothesis.filter_append comment.text

/-- A line is what erasing comments leaves of the line with the same number. -/
theorem linesWithin_eraseComments (text : Text) : text.eraseComments.LinesWithin text := by
  have within := linesWithin_join (Comment.form.split text)
  rwa [Form.join_split] at within

/-! ## Wrapped lines -/

/-- A pattern without line breaks stands on the line behind the line breaks in front of it. -/
theorem exists_getElem?_of_flatMap_eq
    {lines : List Text}
    (inline : ∀ line ∈ lines, '\n' ∉ line)
    {before pattern after : Text}
    (nonempty : pattern ≠ [])
    (onLine : '\n' ∉ pattern)
    (whole : lines.flatMap (· ++ ['\n']) = before ++ pattern ++ after) :
    ∃ line, lines[before.breaks]? = some line ∧ pattern <:+: line := by
  induction lines generalizing before with
  | nil => exact absurd (List.append_eq_nil_iff.mp (List.append_eq_nil_iff.mp whole.symm).1).2 nonempty
  | cons line others inductionHypothesis =>
      rw [List.forall_mem_cons] at inline
      rw [List.flatMap_cons, List.append_assoc, List.singleton_append] at whole
      by_cases broken : '\n' ∈ before
      · obtain ⟨first, rest, rfl, noBreak⟩ := List.eq_append_cons_of_mem broken
        rw [List.append_assoc, List.append_assoc, List.cons_append] at whole
        obtain ⟨rfl, behind⟩ := eq_and_eq_of_append_cons_eq inline.1 noBreak whole
        rw [← List.append_assoc] at behind
        obtain ⟨found, lined, inside⟩ := inductionHypothesis inline.2 behind
        refine ⟨found, ?_, inside⟩
        rw [breaks_append, breaks, List.count_eq_zero_of_not_mem noBreak, Nat.zero_add, breaks,
          List.count_cons_self, List.getElem?_cons_succ]
        exact lined
      · have leading : before ++ pattern <+: line := by
          refine prefix_of_prefix_append_cons (c := '\n') ?_ ⟨after, whole.symm⟩
          rw [List.mem_append, not_or]
          exact ⟨broken, onLine⟩
        rw [breaks, List.count_eq_zero_of_not_mem broken]
        exact ⟨line, rfl, (List.suffix_append before pattern).isInfix.trans leading.isInfix⟩

/-- Flat text of a wrapped line stands on the line itself. -/
theorem infix_of_infix_wrapLine
    {pattern line : Text}
    (flat : pattern.IsFlat)
    (nonempty : pattern ≠ [])
    (inside : pattern <:+: line.wrapLine) :
    pattern <:+: line := by
  have apart {brace : Char} (delimiter : Character.delimits brace = true) :
      ∀ c ∈ [brace, brace], c ∉ pattern := by
    intro c member
    rw [List.mem_cons, List.mem_singleton, or_self] at member
    rw [member]
    exact flat.notMem delimiter
  rcases line.wrapLine_eq_or_eq with same | wrapped
  · rwa [same] at inside
  · rw [wrapped, List.append_assoc, Statement.opening,
      infix_append_append_iff nonempty (apart (by decide)) (by decide)] at inside
    rcases inside with leading | inside
    · exact leading.trans (List.takeWhile_prefix _).isInfix
    · have trimmed : pattern <:+: line.trim ++ (Statement.closing ++ []) := by
        rwa [List.append_nil]
      rw [Statement.closing,
        infix_append_append_iff nonempty (apart (by decide)) (by decide)] at trimmed
      rcases trimmed with inside | empty
      · exact inside.trans line.trim_infix
      · exact absurd (List.infix_nil.mp empty) nonempty

/-- Flat text of the wrapped text stands on the line of the same number. -/
theorem exists_line?_of_wrapLines_eq
    {text before pattern after : Text}
    (flat : pattern.IsFlat)
    (nonempty : pattern ≠ [])
    (whole : text.wrapLines = before ++ pattern ++ after) :
    ∃ line, text.line? (1 + before.breaks) = some line ∧ pattern <:+: line := by
  obtain ⟨lines_eq, inline⟩ := text.wrapLines_eq_flatMap
  rw [lines_eq] at whole
  obtain ⟨wrapped, found, inside⟩ :=
    exists_getElem?_of_flatMap_eq inline nonempty (flat.notMem (by decide)) whole
  rw [List.getElem?_map, Option.map_eq_some_iff] at found
  obtain ⟨line, found, rfl⟩ := found
  rw [Nat.add_comm]
  exact ⟨line, found, infix_of_infix_wrapLine flat nonempty inside⟩

end Text

/-! ## Errors -/

/-- The name stands on the line with this number, once the mode has erased what comments it erases,
and the line is left of the line with the same number in the text as it was. -/
def Mode.Locates (mode : Mode) (text name : Text) (number : Nat) : Prop :=
  ∃ line original : Text,
    (if mode.erasesComments then text.eraseComments else text).line? number = some line ∧
      name <:+: line ∧ text.line? number = some original ∧ line.Sublist original

theorem Mode.locates_of_normalize_eq
    {mode : Mode}
    {text before name after : Text}
    (flat : name.IsFlat)
    (nonempty : name ≠ [])
    (whole : mode.normalize text = before ++ name ++ after) :
    mode.Locates text name (1 + before.breaks) := by
  obtain ⟨line, found, inside⟩ := Text.exists_line?_of_wrapLines_eq flat nonempty whole
  have within : (if mode.erasesComments then text.eraseComments else text).LinesWithin text := by
    split
    · exact text.linesWithin_eraseComments
    · exact .refl text
  rw [Nat.add_comm] at found ⊢
  obtain ⟨original, foundOriginal, sublist⟩ := within _ line found
  exact ⟨line, original, found, inside, foundOriginal, sublist⟩

/-- The line breaks of a text survive until errors are found.  Erasing comments keeps their number,
and whatever stands outside of comments keeps its line; wrapping gives one line for each line, which
is that line or its content between braces.  So a reserved variable and a block that is not closed
are reported on the line of the text where they stand. -/
theorem compile_errors_name_lines :
    (∀ text : Text, text.eraseComments.breaks = text.breaks ∧
      ∀ front c behind, Comment.form.split text = front ++ .char c :: behind →
        let before := Comment.form.join front
        let after := Comment.form.join behind
        text = before ++ c :: after ∧
          text.eraseComments = before.eraseComments ++ c :: after.eraseComments ∧
          before.eraseComments.breaks = before.breaks) ∧
    (∀ text : Text, ∃ results : List Text,
      text.wrapLines = results.flatMap (· ++ ['\n']) ∧ (∀ result ∈ results, '\n' ∉ result) ∧
      List.Forall₂ (fun line result => result = line ∨
          result = line.leadingSpace ++ (Statement.opening ++ line.trim ++ Statement.closing))
        text.lines results) ∧
    ∀ (config : Config) (text : Text),
      (∀ name line, compile config text = .error (.reservedVariable name line) →
        config.mode.Locates text name line) ∧
      ∀ keyword line, compile config text = .error (.unclosedBlock ⟨keyword, line⟩) →
        config.mode.Locates text keyword.name line := by
  refine ⟨fun text => ⟨text.breaks_eraseComments, fun front c behind split_eq => ?_⟩,
    fun text => ?_, fun config text => ⟨fun name line failed => ?_, fun keyword line failed => ?_⟩⟩
  · obtain ⟨whole, erased⟩ := Text.eraseComments_eq_of_split_eq split_eq
    exact ⟨whole, erased, Text.breaks_eraseComments _⟩
  · obtain ⟨lines_eq, inline⟩ := text.wrapLines_eq_flatMap
    refine ⟨_, lines_eq, inline, ?_⟩
    rw [List.forall₂_map_right_iff, List.forall₂_same]
    exact fun line _ => line.wrapLine_eq_or_eq
  · rcases place_of_compile_eq_error failed with
      ⟨token, before, error_eq, _, word, after, whole, _⟩ | ⟨_, _, _, error_eq, _⟩ | ⟨_, _, error_eq⟩
    · obtain ⟨rfl, rfl⟩ := CompileError.reservedVariable.inj error_eq
      refine Mode.locates_of_normalize_eq ?_ (List.cons_ne_nil _ _) whole
      rw [Text.IsFlat, Variable.text, List.forall_mem_cons]
      exact ⟨by decide, fun c member => Character.delimits_eq_false_of_isWord (word c member)⟩
    · cases error_eq
    · cases error_eq
  · rcases place_of_compile_eq_error failed with
      ⟨_, _, error_eq, _⟩ | ⟨found, before, after, error_eq, whole⟩ | ⟨_, _, error_eq⟩
    · cases error_eq
    · obtain ⟨rfl, rfl⟩ := OpenBlock.mk.inj (CompileError.unclosedBlock.inj error_eq)
      -- the keyword stands behind the braces of the opener, on the same line
      rw [Keyword.opener, ← List.append_assoc] at whole
      have located := Mode.locates_of_normalize_eq
        (fun c member => Character.delimits_eq_false_of_isWord (Keyword.isWord_of_mem_name member))
        (by cases keyword <;> decide) whole
      rwa [Text.breaks_append] at located
    · cases error_eq

/-- A variable is put together from what stands around a comment, on the line where another comment
ends, and a block is opened behind a line that ends with a carriage return. -/
theorem compile_errors_name_lines_comments :
    let commented : Text := "a/* b\r\nc */$my/* */Output := 1".toList
    let unclosed : Text := "x\r\n\n  define \"f\"\n    print 1".toList
    let product : Config := { mode := .product }
    let runtime : Config := { mode := .runtime }
    commented.eraseComments = "a".toList ++ ['\n'] ++ "$myOutput := 1".toList ∧
      (Text.eraseComments "a/* b\r\nc */".toList).breaks = 1 ∧
      compile product commented = .error (.reservedVariable "$myOutput".toList 2) ∧
      Mode.product.Locates commented "$myOutput".toList 2 ∧
      compile runtime unclosed = .error (.unclosedBlock ⟨.define, 3⟩) ∧
      Mode.runtime.Locates unclosed "define".toList 3 := by
  intro commented unclosed product runtime
  obtain ⟨erasing, _, errors⟩ := compile_errors_name_lines
  have reserved : compile product commented = .error (.reservedVariable "$myOutput".toList 2) := by
    decide +kernel
  have opened : compile runtime unclosed = .error (.unclosedBlock ⟨.define, 3⟩) := by
    decide +kernel
  have split_eq : Comment.form.split commented =
      [.char 'a', .phrase ⟨" b\r\nc ".toList⟩] ++
        .char '$' :: Comment.form.split "my/* */Output := 1".toList := by
    decide +kernel
  obtain ⟨_, erased, breaks⟩ := (erasing commented).2 _ _ _ split_eq
  refine ⟨erased.trans ?_, breaks, reserved, (errors product commented).1 _ _ reserved, opened,
    (errors runtime unclosed).2 _ _ opened⟩
  decide +kernel

end OutputThreading
