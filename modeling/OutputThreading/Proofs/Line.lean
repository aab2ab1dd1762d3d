import OutputThreading.Line
import OutputThreading.Proofs.Return
import OutputThreading.Proofs.Statement.Shown

/-!
# Lines and what they show

Wrapping goes line by line (`Text.wrapLines_append_newline`), and whether the carriage return
in front of a line break is taken off makes no difference to the statements that a line shows.  White
space inside of the braces of a wrapped line belongs to its first and its last statement.
-/

namespace OutputThreading
namespace Text

/-! ## Lines -/

/-- The line without a carriage return at its end. -/
def dropReturn (line : Text) : Text :=
  if line.getLast? = some '\r' then line.dropLast else line

theorem dropReturn_concat_return (line : Text) : dropReturn (line ++ ['\r']) = line := by
  simp [dropReturn]

theorem dropReturn_eq_self_iff {line : Text} : line.dropReturn = line ↔ ¬['\r'] <:+ line := by
  constructor
  · rintro same ⟨front, rfl⟩
    rw [dropReturn_concat_return, List.self_eq_append_right] at same
    cases same
  · intro noReturn
    rw [dropReturn, if_neg]
    intro last
    obtain ⟨front, rfl⟩ := List.getLast?_eq_some_iff.mp last
    exact noReturn ⟨front, rfl⟩

theorem eq_dropReturn_or (line : Text) :
    line = line.dropReturn ∨ line = line.dropReturn ++ ['\r'] := by
  by_cases ends : ['\r'] <:+ line
  · obtain ⟨front, rfl⟩ := ends
    right
    rw [dropReturn_concat_return]
  · exact .inl (dropReturn_eq_self_iff.mpr ends).symm

theorem mem_of_mem_dropReturn {line : Text} {c : Char} (member : c ∈ line.dropReturn) : c ∈ line := by
  rcases line.eq_dropReturn_or with same | longer
  · rwa [same]
  · rw [longer]
    exact List.mem_append_left ['\r'] member

/-- A carriage return at the end is trimmed away. -/
theorem trim_concat_return (line : Text) : trim (line ++ ['\r']) = line.trim := by
  have nothing : ∀ c ∈ ([] : Text), Character.isSpace c = true := by simp
  have space : ∀ c ∈ ['\r'], Character.isSpace c = true := by
    rw [List.forall_mem_singleton]
    decide
  exact trim_append_append nothing space line

theorem trim_dropReturn (line : Text) : line.dropReturn.trim = line.trim := by
  rcases line.eq_dropReturn_or with same | longer
  · rw [← same]
  · conv => rhs; rw [longer]
    exact line.dropReturn.trim_concat_return.symm

theorem dropReturn_cons {c : Char} {line : Text} (longer : c = '\r' → line ≠ []) :
    dropReturn (c :: line) = c :: dropReturn line := by
  cases line with
  | nil =>
      have other : c ≠ '\r' := fun isReturn => longer isReturn rfl
      simp [dropReturn, other]
  | cons d line =>
      rw [dropReturn, dropReturn, List.getLast?_cons_cons, List.dropLast_cons_of_ne_nil (by simp)]
      split <;> rfl

/-- A line goes up to its line break, less a carriage return in front of it. -/
theorem lines_append_newline {line : Text} (noBreak : '\n' ∉ line) (rest : Text) :
    lines (line ++ '\n' :: rest) = line.dropReturn :: lines rest := by
  induction line with
  | nil => rw [List.nil_append, lines, dropReturn_eq_self_iff.mpr (by simp)]
  | cons c line inductionHypothesis =>
      rw [List.mem_cons, not_or] at noBreak
      by_cases ends : c = '\r' ∧ line = []
      · obtain ⟨rfl, rfl⟩ := ends
        rw [List.cons_append, List.nil_append, lines]
        rfl
      · rw [dropReturn_cons fun isReturn empty => ends ⟨isReturn, empty⟩, List.cons_append, lines,
          inductionHypothesis noBreak.2]
        · rintro rfl
          exact noBreak.1 rfl
        · intro others isReturn equal
          apply ends
          refine ⟨isReturn, ?_⟩
          cases line with
          | nil => rfl
          | cons d line =>
              rw [(List.cons.inj equal).1] at noBreak
              exact absurd List.mem_cons_self noBreak.2

theorem lines_eq_singleton
    {line : Text}
    (noBreak : '\n' ∉ line)
    (nonempty : line ≠ []) :
    lines line = [line] := by
  induction line with
  | nil => exact absurd rfl nonempty
  | cons c line inductionHypothesis =>
      rw [List.mem_cons, not_or] at noBreak
      rw [lines]
      · cases line with
        | nil => rw [lines]
        | cons d line => rw [inductionHypothesis noBreak.2 (List.cons_ne_nil d line)]
      · rintro rfl
        exact noBreak.1 rfl
      · rintro others - rfl
        exact noBreak.2 List.mem_cons_self

theorem newline_notMem_of_mem_lines {text line : Text} (member : line ∈ text.lines) :
    '\n' ∉ line := by
  fun_induction lines text generalizing line with
  | case1 => cases member
  | case2 rest inductionHypothesis =>
      rcases List.mem_cons.mp member with rfl | member
      · exact List.not_mem_nil
      · exact inductionHypothesis member
  | case3 rest inductionHypothesis =>
      rcases List.mem_cons.mp member with rfl | member
      · exact List.not_mem_nil
      · exact inductionHypothesis member
  | case4 c rest noBreak _ empty inductionHypothesis =>
      rw [List.mem_singleton.mp member, List.mem_singleton]
      exact fun isBreak => noBreak isBreak.symm
  | case5 c rest noBreak _ first others lines_eq inductionHypothesis =>
      rw [lines_eq] at inductionHypothesis
      rcases List.mem_cons.mp member with rfl | member
      · rw [List.mem_cons, not_or]
        exact ⟨fun isBreak => noBreak isBreak.symm, inductionHypothesis List.mem_cons_self⟩
      · exact inductionHypothesis (List.mem_cons_of_mem _ member)

/-- A text between braces is trimmed as it stands. -/
theorem trim_text (statement : Statement) : statement.text.trim = statement.text := by
  have opens : Character.isSpace '{' = false := by decide
  have closes : Character.isSpace '}' = false := by decide
  have last : statement.text = Statement.opening ++ statement.interior ++ ['}'] ++ ['}'] := by
    rw [Statement.text, List.append_assoc (_ ++ _)]
    rfl
  have first : statement.text.trimStart = statement.text :=
    trimStart_cons_of_not_space opens _
  rw [trim, first, last, trimEnd_concat closes]

theorem isWrapped_iff (line : Text) :
    line.isWrapped = true ↔ ∃ inside, line.trim = (Statement.mk inside).text := by
  have begins (text pattern : Text) : text.startsWith pattern = true ↔ pattern <+: text := by
    rw [startsWith, Option.isSome_iff_ne_none, ne_eq, after?_eq_none_iff, not_not]
  rw [isWrapped, Bool.and_eq_true, endsWith, begins, begins, List.reverse_prefix]
  constructor
  · rintro ⟨⟨behind, leading⟩, before, trailing⟩
    rw [← leading] at trailing
    rcases List.append_eq_append_iff.mp trailing with ⟨part, opening_eq, closing_eq⟩ |
      ⟨inside, before_eq, behind_eq⟩
    · cases part with
      | nil =>
          refine ⟨[], ?_⟩
          rw [← leading, ← List.nil_append behind, ← closing_eq]
          rfl
      | cons c part =>
          -- the two pairs of braces do not overlap
          have opens : c ∈ Statement.opening := by
            rw [opening_eq]
            simp
          rw [← (List.cons.inj closing_eq).1] at opens
          exact absurd opens (by decide)
    · refine ⟨inside, ?_⟩
      rw [← leading, behind_eq, Statement.text, List.append_assoc]
  · rintro ⟨inside, trimmed⟩
    rw [trimmed]
    exact ⟨⟨inside ++ Statement.closing, by rw [Statement.text, List.append_assoc]⟩,
      ⟨Statement.opening ++ inside, rfl⟩⟩

/-- What wrapping makes of a line: the line itself, or its indentation and its trimmed content
between braces. -/
theorem wrapLine_eq_or_eq (line : Text) :
    line.wrapLine = line ∨
      line.wrapLine =
        line.leadingSpace ++ (Statement.opening ++ line.trim ++ Statement.closing) := by
  unfold wrapLine
  split
  · exact .inl rfl
  · exact .inr rfl

theorem trim_infix (text : Text) : text.trim <:+: text :=
  ⟨text.leadingSpace, text.trimStart.trailingSpace, by
    rw [List.append_assoc, text.leadingSpace_append_trim_append]⟩

/-- Wrapping adds braces only. -/
theorem mem_of_mem_wrapLine {line : Text} {c : Char} (member : c ∈ line.wrapLine) :
    c ∈ line ∨ c = '{' ∨ c = '}' := by
  rcases line.wrapLine_eq_or_eq with same | wrapped
  · rw [same] at member
    exact .inl member
  · rw [wrapped] at member
    simp only [List.mem_append, Statement.opening, Statement.closing, List.mem_cons,
      List.not_mem_nil, or_false, or_self] at member
    rcases member with leading | (opening | inside) | closing
    · exact .inl (List.takeWhile_subset _ leading)
    · exact .inr (.inl opening)
    · exact .inl (line.trim_infix.subset inside)
    · exact .inr (.inr closing)

/-- Wrapping gives one line for each line. -/
theorem wrapLines_eq_flatMap (text : Text) :
    text.wrapLines = (text.lines.map wrapLine).flatMap (· ++ ['\n']) ∧
      ∀ line ∈ text.lines.map wrapLine, '\n' ∉ line := by
  refine ⟨by rw [wrapLines, List.flatMap_map], ?_⟩
  rw [List.forall_mem_map]
  intro line member newline
  rcases mem_of_mem_wrapLine newline with inside | brace | brace
  · exact newline_notMem_of_mem_lines member inside
  · cases brace
  · cases brace

/-- The first line is wrapped, then the others. -/
theorem wrapLines_append_newline {line : Text} (noBreak : '\n' ∉ line) (rest : Text) :
    wrapLines (line ++ '\n' :: rest) = line.dropReturn.wrapLine ++ '\n' :: rest.wrapLines := by
  rw [wrapLines, lines_append_newline noBreak, List.flatMap_cons, List.append_assoc,
    List.singleton_append]
  rfl

theorem wrapLine_of_isBlank {line : Text} (blank : line.isBlank = true) : line.wrapLine = line := by
  rw [wrapLine, blank]
  rfl

theorem wrapLine_of_isWrapped {line : Text} (wrapped : line.isWrapped = true) :
    line.wrapLine = line := by
  rw [wrapLine, wrapped, Bool.or_true]
  rfl

theorem wrapLine_of_bare
    {line : Text}
    (blank : line.isBlank = false)
    (wrapped : line.isWrapped = false) :
    line.wrapLine = line.leadingSpace ++ (Statement.mk line.trim).text := by
  rw [wrapLine, blank, wrapped]
  rfl

/-- Wrapping keeps a carriage return at the end of a line or drops it. -/
theorem wrapLine_append_return (line : Text) :
    wrapLine (line ++ ['\r']) = line.wrapLine ∨
      wrapLine (line ++ ['\r']) = line.wrapLine ++ ['\r'] := by
  by_cases blank : line.isBlank = true
  · have both : isBlank (line ++ ['\r']) = true := by
      rw [isBlank, List.all_append, Bool.and_eq_true]
      exact ⟨blank, by decide⟩
    exact .inr (by rw [wrapLine_of_isBlank both, wrapLine_of_isBlank blank])
  · rw [Bool.not_eq_true] at blank
    have both : isBlank (line ++ ['\r']) = false := by
      rw [isBlank, List.all_append]
      exact Bool.and_eq_false_imp.mpr fun all => absurd all (by rw [← isBlank, blank]; simp)
    have wrapped_eq : isWrapped (line ++ ['\r']) = line.isWrapped := by
      rw [isWrapped, isWrapped, trim_concat_return]
    by_cases wrapped : line.isWrapped = true
    · exact .inr (by rw [wrapLine_of_isWrapped (wrapped_eq.trans wrapped),
        wrapLine_of_isWrapped wrapped])
    · rw [Bool.not_eq_true] at wrapped
      have leading : leadingSpace (line ++ ['\r']) = line.leadingSpace := by
        rcases line.trimStart_eq_nil_or_cons with empty | ⟨c, rest, trimmed, solid⟩
        · have isBlank := (trim_eq_nil_iff line).mp (by rw [trim, empty]; rfl)
          rw [blank] at isBlank
          cases isBlank
        · conv => lhs; rw [← line.leadingSpace_append_trimStart, trimmed, List.append_assoc,
            List.cons_append]
          exact leadingSpace_append_solid (fun d => isSpace_of_mem_leadingSpace) solid _
      left
      rw [wrapLine_of_bare both (wrapped_eq.trans wrapped), wrapLine_of_bare blank wrapped,
        trim_concat_return, leading]

/-- A line shows the same without its carriage return. -/
theorem Shows.wrapLine_dropReturn {line : Text} {statements : List Statement} :
    line.dropReturn.wrapLine.Shows statements ↔ line.wrapLine.Shows statements := by
  symm
  rcases line.eq_dropReturn_or with same | longer
  · rw [← same]
  · conv => lhs; rw [longer]
    rcases line.dropReturn.wrapLine_append_return with same | longer
    · rw [same]
    · rw [longer]
      constructor
      · exact of_append_right (by decide)
      · intro shows
        have lone : Shows ['\r'] [] := of_notMem (by decide) (by decide)
        have both := shows.append lone
        rwa [List.append_nil] at both

/-- A text of one line shows what the line shows. -/
theorem Shows.wrapLines_iff
    {line : Text}
    {statements : List Statement}
    (noBreak : '\n' ∉ line) :
    line.wrapLines.Shows statements ↔ line.wrapLine.Shows statements := by
  by_cases empty : line = []
  · subst empty
    rfl
  · have whole : line.wrapLines = line.wrapLine ++ ['\n'] := by
      rw [wrapLines, lines_eq_singleton noBreak empty, List.flatMap_singleton]
    rw [whole]
    constructor
    · exact of_append_right (by decide)
    · intro shows
      have lone : Shows ['\n'] [] := of_notMem (by decide) (by decide)
      have both := shows.append lone
      rwa [List.append_nil] at both

/-! ## Trimming inside of the braces -/

/-- White space behind the opening braces belongs to the first statement. -/
theorem Shows.exists_trimStart
    {inside : Text}
    {statements : List Statement}
    (shows : (Statement.mk inside).text.Shows statements) :
    ∃ first others, statements = first :: others ∧
      (Statement.mk inside.trimStart).text.Shows (⟨first.interior.trimStart⟩ :: others) ∧
      (inside.trimStart = inside → first.interior.trimStart = first.interior) ∧
      inside.trimStart.head? ≠ some '{' := by
  have brace : Character.isSpace '}' = false := by decide
  rw [Statement.text, List.append_assoc] at shows
  obtain ⟨first, behind, others, rfl, flat, whole, showsBehind⟩ := shows.exists_of_opening_append
  have flatTrimmed : first.interior.trimStart.IsFlat :=
    flat.of_infix first.interior.trimStart_suffix.isInfix
  have trimmed : inside.trimStart ++ Statement.closing =
      first.interior.trimStart ++ Statement.closing ++ behind := by
    have ends := congrArg trimStart whole
    rw [List.append_assoc] at ends
    have left := trimStart_append_cons brace inside ['}']
    have right := trimStart_append_cons brace first.interior ('}' :: behind)
    rw [List.append_assoc]
    exact left.symm.trans (ends.trans right)
  refine ⟨first, others, rfl, ?_, fun same => ?_, fun leading => ?_⟩
  · have text_eq : (Statement.mk inside.trimStart).text =
        (Statement.mk first.interior.trimStart).text ++ behind := by
      rw [Statement.text, List.append_assoc, trimmed, Statement.text]
      simp only [List.append_assoc]
    rw [text_eq]
    exact (of_statement flatTrimmed).append showsBehind
  · rw [same, whole] at trimmed
    exact (List.append_cancel_right (List.append_cancel_right trimmed)).symm
  · have starts := congrArg List.head? trimmed
    rw [List.append_assoc, List.head?_append, leading, Option.some_or] at starts
    cases interior : first.interior.trimStart with
    | nil =>
        rw [interior] at starts
        exact absurd (Option.some.inj starts) (by decide)
    | cons c rest =>
        rw [interior] at starts flatTrimmed
        rw [← Option.some.inj starts] at flatTrimmed
        exact flatTrimmed.notMem (by decide) List.mem_cons_self

/-- White space in front of the closing braces belongs to the last statement. -/
theorem Shows.exists_trimEnd
    {inside : Text}
    {statements : List Statement}
    (shows : (Statement.mk inside).text.Shows statements) :
    ∃ last others, statements = others ++ [last] ∧
      (Statement.mk inside.trimEnd).text.Shows (others ++ [⟨last.interior.trimEnd⟩]) ∧
      (inside.trimEnd = inside → last.interior.trimEnd = last.interior) := by
  have brace : Character.isSpace '{' = false := by decide
  obtain ⟨last, before, others, rfl, flat, whole, showsBefore⟩ := shows.exists_of_append_closing
  have flatTrimmed : last.interior.trimEnd.IsFlat :=
    flat.of_infix last.interior.trimEnd_prefix.isInfix
  have trimmed : Statement.opening ++ inside.trimEnd =
      before ++ Statement.opening ++ last.interior.trimEnd := by
    have ends := congrArg trimEnd whole
    rw [List.append_assoc] at ends
    have left := trimEnd_append_cons brace ['{'] inside
    have right := trimEnd_append_cons brace (before ++ ['{']) last.interior
    rw [List.append_assoc] at right ⊢
    rw [List.append_assoc] at right
    exact left.symm.trans (ends.trans right)
  refine ⟨last, others, rfl, ?_, fun same => ?_⟩
  · have text_eq : (Statement.mk inside.trimEnd).text =
        before ++ (Statement.mk last.interior.trimEnd).text := by
      rw [Statement.text, trimmed, Statement.text]
      simp only [List.append_assoc]
    rw [text_eq]
    exact showsBefore.append (of_statement flatTrimmed)
  · rw [same, whole] at trimmed
    exact (List.append_cancel_left trimmed).symm

end Text
end OutputThreading
