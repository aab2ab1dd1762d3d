import OutputThreading.Proofs.Block
import OutputThreading.Proofs.Print
import OutputThreading.Proofs.Variable
import OutputThreading.Template.Threading

/-!
# The passes over a template

A template is prepared by passes that each put a statement between others: the declaration of the
accumulator behind the first statement, and a return in front of the last end statement.  On the
pieces of a delimited text this is what they do, and the pieces stay delimited.
-/

namespace OutputThreading

/-- The statement that starts an accumulator. -/
def Accumulator.declaring (accumulator : Text) : Statement :=
  ⟨accumulator ++ " := \"\"".toList⟩

/-- The return statement without a value. -/
def Statement.returning : Statement := ⟨"return".toList⟩

theorem Accumulator.isFlat_declaring {accumulator : Text} (isName : accumulator.IsName) :
    (Accumulator.declaring accumulator).interior.IsFlat := by
  unfold declaring
  rw [Text.isFlat_append_iff]
  exact ⟨isName.isFlat, by decide⟩

theorem NameSupply.IsGenerated.exists_declaring_eq_cons
    {names : NameSupply}
    (generated : names.IsGenerated) :
    ∃ rest, (Accumulator.declaring names.accumulator).interior = '$' :: rest := by
  obtain ⟨name, accumulator_eq, _⟩ := generated.exists_accumulator_eq_cons
  unfold Accumulator.declaring
  rw [accumulator_eq]
  exact ⟨_, rfl⟩

namespace Statement.Delimited

/-- Other pieces may follow an initial part if their text starts alike as far as braces go. -/
theorem replace_end
    {front behind other : List (Piece Statement)}
    (delimited : Delimited (front ++ behind))
    (delimitedOther : Delimited other)
    (seam : (form.join other).head? = some '{' → (form.join behind).head? = some '{') :
    Delimited (front ++ other) := by
  induction front with
  | nil => exact delimitedOther
  | cons piece front inductionHypothesis =>
      cases delimited with
      | @char c _ single others =>
          refine .char (fun brace => ?_) (inductionHypothesis others)
          intro second
          apply single brace
          cases front with
          | nil => exact seam second
          | cons next front => cases next <;> exact second
      | phrase plain others => exact .phrase plain (inductionHypothesis others)

theorem of_append
    {front behind : List (Piece Statement)}
    (delimited : Delimited (front ++ behind)) :
    Delimited behind := by
  induction front with
  | nil => exact delimited
  | cons piece front inductionHypothesis =>
      cases delimited with
      | char single others => exact inductionHypothesis others
      | phrase plain others => exact inductionHypothesis others

end Statement.Delimited

/-! ## Declaring the accumulator -/

/-- The pieces of a new line with the declaration of the accumulator. -/
def Accumulator.declarationLine (accumulator indent : Text) : List (Piece Statement) :=
  ('\n' :: indent).map .char ++ [.phrase (Accumulator.declaring accumulator)]

/-- The pieces with the declaration of the accumulator behind the first closing braces. -/
def Statement.declared (accumulator indent : Text) : List (Piece Statement) → List (Piece Statement)
  | [] => []
  | .phrase statement :: pieces =>
      .phrase statement :: (Accumulator.declarationLine accumulator indent ++ pieces)
  | .char c :: pieces =>
      if c = '}' ∧ pieces.head? = some (.char '}') then
        .char c :: .char '}' :: (Accumulator.declarationLine accumulator indent ++ pieces.tail)
      else .char c :: declared accumulator indent pieces

theorem Statement.join_declarationLine (accumulator indent : Text) :
    Statement.form.join (Accumulator.declarationLine accumulator indent) =
      '\n' :: indent ++ Accumulator.declare accumulator := by
  unfold Accumulator.declarationLine
  rw [Form.join_append]
  have chars : Statement.form.join (('\n' :: indent).map .char) = '\n' :: indent :=
    Form.flatMap_text_map_char Statement.form.write ('\n' :: indent)
  rw [chars]
  simp only [Form.join_cons, Form.join_nil, Piece.text_phrase, List.append_nil]
  rfl

namespace Statement

theorem IsPlain.breakOn?_text_append
    {statement : Statement}
    (plain : statement.IsPlain)
    (rest : Text) :
    (statement.text ++ rest).breakOn? closing = some (opening ++ statement.interior, rest) := by
  have absent : ¬closing <:+: opening ++ statement.interior ++ closing.dropLast := by
    have parts : opening ++ statement.interior ++ closing.dropLast =
        [] ++ (opening ++ (statement.interior ++ ['}'])) := by
      simp [closing]
    have apart : ∀ c ∈ opening, c ∉ closing := by
      simp [closing, opening]
    rw [parts, Text.infix_append_append_iff (by decide) apart (by decide)]
    rintro (short | inside)
    · exact absurd short (by decide)
    · exact plain.closesOnce inside
  exact Text.breakOn?_append closing_ne_nil absent rest

theorem head?_join_eq_brace_iff
    {c : Char}
    (closes : c ≠ '{')
    (pieces : List (Piece Statement)) :
    (form.join pieces).head? = some c ↔ pieces.head? = some (.char c) := by
  match pieces with
  | [] => simp
  | .char d :: pieces => simp
  | .phrase statement :: pieces =>
      have first : (form.join (.phrase statement :: pieces)).head? = some '{' := rfl
      rw [first]
      simp [closes.symm]

end Statement

theorem Text.declareAccumulator_of_breakOn?
    {text head body : Text}
    (found : text.breakOn? Statement.closing = some (head, body))
    (accumulator indent : Text) :
    text.declareAccumulator accumulator indent =
      head ++ Statement.closing ++ ['\n'] ++ indent ++ Accumulator.declare accumulator ++ body := by
  unfold declareAccumulator
  rw [found]

theorem Text.declareAccumulator_cons
    {c : Char}
    {text : Text}
    (notClosed : after? (c :: text) Statement.closing = none)
    (accumulator indent : Text) :
    declareAccumulator (c :: text) accumulator indent =
      c :: text.declareAccumulator accumulator indent := by
  unfold declareAccumulator
  rw [breakOn?, notClosed]
  cases text.breakOn? Statement.closing with
  | none => rfl
  | some parts => simp

namespace Statement

/-- Declaring the accumulator puts a line behind the first closing braces. -/
theorem declareAccumulator_join
    {pieces : List (Piece Statement)}
    (delimited : Delimited pieces)
    (accumulator indent : Text) :
    (form.join pieces).declareAccumulator accumulator indent =
      form.join (declared accumulator indent pieces) := by
  induction delimited with
  | nil => rfl
  | @char c pieces single others inductionHypothesis =>
      unfold declared
      rw [Form.join_cons, Piece.text_char, List.singleton_append]
      split
      next closes =>
        obtain ⟨rfl, next⟩ := closes
        obtain ⟨behind, rfl⟩ := List.head?_eq_some_iff.mp next
        have absent : ¬closing <:+: [] ++ closing.dropLast := by decide
        have broken : Text.breakOn? ('}' :: form.join (.char '}' :: behind)) closing =
            some ([], form.join behind) :=
          Text.breakOn?_append closing_ne_nil absent (form.join behind)
        rw [Text.declareAccumulator_of_breakOn? broken]
        simp [join_declarationLine, closing]
      next notClosed =>
        have absent : Text.after? (c :: form.join pieces) closing = none := by
          rw [Text.after?_eq_none_iff]
          rintro ⟨rest, equal⟩
          obtain ⟨first, second⟩ := List.cons.inj equal
          apply notClosed
          refine ⟨first.symm, (head?_join_eq_brace_iff (by decide) pieces).mp ?_⟩
          rw [← second]
          rfl
        rw [Text.declareAccumulator_cons absent, inductionHypothesis]
        rfl
  | @phrase statement pieces plain others inductionHypothesis =>
      have broken : (form.join (.phrase statement :: pieces)).breakOn? closing =
          some (opening ++ statement.interior, form.join pieces) :=
        plain.breakOn?_text_append (form.join pieces)
      unfold declared
      rw [Text.declareAccumulator_of_breakOn? broken, Form.join_cons, Form.join_append,
        join_declarationLine, Piece.text_phrase]
      change _ = statement.text ++ _
      simp [text]

theorem head?_join_declared
    (accumulator indent : Text)
    (pieces : List (Piece Statement)) :
    (form.join (declared accumulator indent pieces)).head? = (form.join pieces).head? := by
  match pieces with
  | [] => rfl
  | .phrase statement :: pieces => rfl
  | .char c :: pieces =>
      unfold declared
      split <;> rfl

theorem delimited_declarationLine_append
    {accumulator indent : Text}
    (isName : accumulator.IsName)
    (noBrace : '{' ∉ indent)
    {pieces : List (Piece Statement)}
    (delimited : Delimited pieces) :
    Delimited (Accumulator.declarationLine accumulator indent ++ pieces) := by
  unfold Accumulator.declarationLine
  rw [List.append_assoc]
  refine Delimited.append_chars (.phrase ?_ delimited) ?_
  · exact isPlain_of_isFlat (Accumulator.isFlat_declaring isName)
  · simp [noBrace]

theorem delimited_declared
    {accumulator indent : Text}
    (isName : accumulator.IsName)
    (noBrace : '{' ∉ indent)
    {pieces : List (Piece Statement)}
    (delimited : Delimited pieces) :
    Delimited (declared accumulator indent pieces) := by
  induction delimited with
  | nil => exact .nil
  | @char c pieces single others inductionHypothesis =>
      unfold declared
      split
      next closes =>
        obtain ⟨rfl, next⟩ := closes
        obtain ⟨behind, rfl⟩ := List.head?_eq_some_iff.mp next
        cases others with
        | char _ others =>
            refine .char (by simp) (.char (by simp) ?_)
            exact delimited_declarationLine_append isName noBrace others
      next =>
        refine .char (fun brace => ?_) inductionHypothesis
        rw [head?_join_declared]
        exact single brace
  | phrase plain others inductionHypothesis =>
      exact .phrase plain (delimited_declarationLine_append isName noBrace others)

/-- Declaring the accumulator removes nothing. -/
theorem sublist_declared
    (accumulator indent : Text)
    (pieces : List (Piece Statement)) :
    pieces.Sublist (declared accumulator indent pieces) := by
  induction pieces with
  | nil => exact .slnil
  | cons piece pieces inductionHypothesis =>
      unfold declared
      cases piece with
      | phrase statement => exact (List.sublist_append_right _ pieces).cons_cons _
      | char c =>
          simp only
          split
          next closes =>
            obtain ⟨behind, rfl⟩ := List.head?_eq_some_iff.mp closes.2
            exact ((List.sublist_append_right _ behind).cons_cons _).cons_cons _
          next => exact inductionHypothesis.cons_cons _

/-- A kind of statement to which the declaration does not belong is found as before. -/
theorem filterMap_declared
    {β : Type}
    {kind? : Statement → Option β}
    {accumulator : Text}
    (other : kind? (Accumulator.declaring accumulator) = none)
    (indent : Text)
    (pieces : List (Piece Statement)) :
    ((declared accumulator indent pieces).filterMap Piece.phrase?).filterMap kind? =
      (pieces.filterMap Piece.phrase?).filterMap kind? := by
  have line (behind : List (Piece Statement)) :
      ((Accumulator.declarationLine accumulator indent ++ behind).filterMap
        Piece.phrase?).filterMap kind? = (behind.filterMap Piece.phrase?).filterMap kind? := by
    have only : (Accumulator.declarationLine accumulator indent).filterMap Piece.phrase? =
        [Accumulator.declaring accumulator] := by
      unfold Accumulator.declarationLine
      rw [List.filterMap_append, Form.filterMap_phrase?_map_char]
      rfl
    rw [List.filterMap_append, only, List.singleton_append, List.filterMap_cons_none other]
  induction pieces with
  | nil => rfl
  | cons piece pieces inductionHypothesis =>
      unfold declared
      cases piece with
      | phrase statement => simp only [List.filterMap_cons, Piece.phrase?_phrase, line]
      | char c =>
          simp only
          split
          next closes =>
            obtain ⟨behind, rfl⟩ := List.head?_eq_some_iff.mp closes.2
            simp only [List.filterMap_cons, Piece.phrase?_char, List.tail_cons, line]
          next => simpa only [List.filterMap_cons, Piece.phrase?_char] using inductionHypothesis

end Statement

/-! ## The last end statement -/

namespace Text

theorem breakOnLast?_append_of_eq_some
    {text pattern front rest : Text}
    (found : text.breakOnLast? pattern = some (front, rest))
    (before : Text) :
    (before ++ text).breakOnLast? pattern = some (before ++ front, rest) := by
  induction before with
  | nil => exact found
  | cons c before inductionHypothesis =>
      rw [List.cons_append, breakOnLast?, inductionHypothesis]
      rfl

theorem breakOnLast?_cons_of_eq_none
    {c : Char}
    {text pattern : Text}
    (notFound : text.breakOnLast? pattern = none) :
    breakOnLast? (c :: text) pattern =
      (after? (c :: text) pattern).map fun rest => ([], rest) := by
  rw [breakOnLast?, notFound]

end Text

namespace Statement

theorem after?_closer_of_read?_eq_none
    {text : Text}
    (notFound : Marker.form.read? text = none) :
    text.after? Marker.closer = none := by
  have neither : Marker.read? text = none := notFound
  unfold Marker.read? at neither
  rw [Option.or_eq_none_iff] at neither
  unfold Marker.readCloser? at neither
  exact Option.map_eq_none_iff.mp neither.2

/-- Passing over text without a marker finds no end statement. -/
theorem breakOnLast?_append_of_skips
    {front rest : Text}
    (skips : Marker.form.Skips front rest)
    (notFound : rest.breakOnLast? Marker.closer = none) :
    (front ++ rest).breakOnLast? Marker.closer = none := by
  induction front with
  | nil => exact notFound
  | cons c front inductionHypothesis =>
      have absent := after?_closer_of_read?_eq_none skips.read?_eq_none
      rw [List.cons_append, Text.breakOnLast?_cons_of_eq_none (inductionHypothesis skips.tail),
        absent]
      rfl

theorem IsPlain.breakOnLast?_text_append
    {statement : Statement}
    (plain : statement.IsPlain)
    {rest : Text}
    (notFound : rest.breakOnLast? Marker.closer = none) :
    (statement.text ++ rest).breakOnLast? Marker.closer =
      if statement = ending then some ([], rest) else none := by
  have skips := Marker.form_isBraced.skips_of_suffix plain List.suffix_rfl rest
  have behind := breakOnLast?_append_of_skips skips notFound
  have whole : statement.text ++ rest =
      '{' :: ('{' :: (statement.interior ++ closing) ++ rest) := rfl
  have closer := Marker.readCloser?_text_append plain.closesOnce rest
  unfold Marker.readCloser? at closer
  rw [whole, Text.breakOnLast?_cons_of_eq_none behind, ← whole]
  by_cases isEnd : statement = ending
  · subst isEnd
    have after : (ending.text ++ rest).after? Marker.closer = some rest :=
      Text.after?_append Marker.closer rest
    rw [after]
    rfl
  · have interior : statement.interior ≠ "end".toList := by
      intro equal
      apply isEnd
      cases statement
      exact congrArg Statement.mk equal
    rw [if_neg interior, Option.map_eq_none_iff] at closer
    rw [closer, if_neg isEnd]
    rfl

/-- The last end statement of a delimited text is one of its pieces. -/
theorem breakOnLast?_join
    {pieces : List (Piece Statement)}
    (delimited : Delimited pieces) :
    ((form.join pieces).breakOnLast? Marker.closer = none ∧
      ending ∉ pieces.filterMap Piece.phrase?) ∨
    ∃ before behind, pieces = before ++ .phrase ending :: behind ∧
      (form.join pieces).breakOnLast? Marker.closer =
        some (form.join before, form.join behind) := by
  induction delimited with
  | nil => exact .inl ⟨by decide, by simp⟩
  | @char c pieces single others inductionHypothesis =>
      rcases inductionHypothesis with ⟨notFound, absent⟩ | ⟨before, behind, rfl, found⟩
      · left
        refine ⟨?_, by simpa [List.filterMap_cons] using absent⟩
        have notHere := after?_closer_of_read?_eq_none
          (Marker.form_isBraced.read?_cons_eq_none single)
        rw [Form.join_cons, Piece.text_char, List.singleton_append,
          Text.breakOnLast?_cons_of_eq_none notFound, notHere]
        rfl
      · right
        refine ⟨.char c :: before, behind, rfl, ?_⟩
        exact Text.breakOnLast?_append_of_eq_some found [c]
  | @phrase statement pieces plain others inductionHypothesis =>
      rcases inductionHypothesis with ⟨notFound, absent⟩ | ⟨before, behind, rfl, found⟩
      · have here : (form.join (.phrase statement :: pieces)).breakOnLast? Marker.closer =
            if statement = ending then some ([], form.join pieces) else none :=
          plain.breakOnLast?_text_append notFound
        by_cases isEnd : statement = ending
        · right
          refine ⟨[], pieces, by rw [isEnd]; rfl, ?_⟩
          rw [here, if_pos isEnd]
          rfl
        · left
          rw [here, if_neg isEnd]
          refine ⟨rfl, ?_⟩
          rw [List.filterMap_cons_some (Piece.phrase?_phrase statement), List.mem_cons, not_or]
          exact ⟨fun equal => isEnd equal.symm, absent⟩
      · right
        refine ⟨.phrase statement :: before, behind, rfl, ?_⟩
        exact Text.breakOnLast?_append_of_eq_some found statement.text

end Statement

/-! ## Adding a return -/

/-- The text up to the last line is empty or ends with a line break. -/
theorem Text.beforeLastLine_cases (text : Text) :
    text.beforeLastLine = [] ∨ ∃ front, text.beforeLastLine = front ++ ['\n'] := by
  unfold beforeLastLine
  have first := List.head?_dropWhile_not (· ≠ '\n') text.reverse
  cases dropped : text.reverse.dropWhile (· ≠ '\n') with
  | nil => exact .inl rfl
  | cons c others =>
      rw [dropped] at first
      have newline : c = '\n' := by simpa using first
      right
      exact ⟨others.reverse, by simp [newline]⟩

namespace Statement

/-- Text without closing braces at the end of the text of pieces consists of pieces. -/
theorem exists_eq_append_map_char
    {pieces : List (Piece Statement)}
    {front text : Text}
    (equal : form.join pieces = front ++ text)
    (noBrace : '}' ∉ text) :
    ∃ before, pieces = before ++ text.map .char ∧ form.join before = front := by
  induction pieces generalizing front text with
  | nil =>
      obtain ⟨rfl, rfl⟩ := List.append_eq_nil_iff.mp equal.symm
      exact ⟨[], rfl, rfl⟩
  | cons piece pieces inductionHypothesis =>
      rw [Form.join_cons] at equal
      rcases List.append_eq_append_iff.mp equal with ⟨inner, front_eq, others⟩ | ⟨inner, here, text_eq⟩
      · obtain ⟨before, pieces_eq, join_eq⟩ := inductionHypothesis others noBrace
        refine ⟨piece :: before, by rw [pieces_eq]; rfl, ?_⟩
        rw [Form.join_cons, join_eq, front_eq]
      · cases inner with
        | nil =>
            have others : form.join pieces = [] ++ text := text_eq.symm
            obtain ⟨before, pieces_eq, join_eq⟩ := inductionHypothesis others noBrace
            refine ⟨piece :: before, by rw [pieces_eq]; rfl, ?_⟩
            rw [Form.join_cons, join_eq, here]
            simp
        | cons c inner =>
            -- the piece reaches into the text, so it is a character
            cases piece with
            | char d =>
                have single : [d] = front ++ c :: inner := here
                obtain ⟨rfl, rfl, rfl⟩ : front = [] ∧ d = c ∧ inner = [] := by
                  cases front <;> simp_all
                have others : form.join pieces = [] ++ form.join pieces := rfl
                obtain ⟨before, pieces_eq, join_eq⟩ := inductionHypothesis others
                  fun member => noBrace (text_eq ▸ List.mem_cons_of_mem d member)
                rw [form.join_eq_nil_iff] at join_eq
                rw [join_eq, List.nil_append] at pieces_eq
                refine ⟨[], ?_, rfl⟩
                conv => lhs; rw [pieces_eq]
                rw [text_eq]
                rfl
            | phrase statement =>
                exfalso
                apply noBrace
                rw [text_eq]
                apply List.mem_append_left
                have last : (front ++ c :: inner).getLast? = some '}' := by
                  rw [← here]
                  change (opening ++ statement.interior ++ closing).getLast? = some '}'
                  rw [List.getLast?_append]
                  rfl
                rw [List.getLast?_append] at last
                cases ends : (c :: inner).getLast? with
                | none => simp at ends
                | some d =>
                    rw [ends, Option.some_or] at last
                    rw [← Option.some.inj last]
                    exact List.mem_of_getLast? ends

/-- A return in front of the last end statement, with its own white space. -/
inductive ReturnsAtEnd : List (Piece Statement) → List (Piece Statement) → Prop
  /-- The return stands in front of the white space of the end statement. -/
  | intro
      (front : List (Piece Statement))
      (margin gap spacing : Text)
      (behind : List (Piece Statement)) :
      ReturnsAtEnd
        (front ++ (spacing.map .char ++ .phrase ending :: behind))
        (front ++ (margin.map .char ++ .phrase returning ::
          (gap.map .char ++ (spacing.map .char ++ .phrase ending :: behind))))

theorem join_map_char (text : Text) : form.join (text.map .char) = text :=
  Form.flatMap_text_map_char form.write text

theorem isPlain_returning : returning.IsPlain :=
  isPlain_of_isFlat (by decide)

/-- White space at the start of the last line is no part of a statement. -/
theorem exists_eq_append_lastLine
    {pieces : List (Piece Statement)}
    (blank : (form.join pieces).lastLine.isBlank = true) :
    ∃ before, pieces = before ++ (form.join pieces).lastLine.map .char ∧
      form.join before = (form.join pieces).beforeLastLine ∧
      (before = [] ∨ ∃ front, before = front ++ [.char '\n']) := by
  have whole := (form.join pieces).beforeLastLine_append_lastLine.symm
  have noBrace : '}' ∉ (form.join pieces).lastLine :=
    fun member => absurd (List.all_eq_true.mp blank '}' member) (by decide)
  obtain ⟨before, pieces_eq, join_eq⟩ := exists_eq_append_map_char whole noBrace
  refine ⟨before, pieces_eq, join_eq, ?_⟩
  rcases (form.join pieces).beforeLastLine_cases with empty | ⟨front, ends⟩
  · left
    rw [← form.join_eq_nil_iff, join_eq, empty]
  · right
    rw [← join_eq] at ends
    obtain ⟨front', before_eq, _⟩ := exists_eq_append_map_char ends (by decide)
    exact ⟨front', before_eq⟩

/-- Pieces may be put in front of a line if no brace in front of that line is left open. -/
theorem Delimited.insert_line
    {before behind other : List (Piece Statement)}
    (delimited : Delimited (before ++ behind))
    (delimitedOther : Delimited other)
    (lineStart : before = [] ∨ ∃ front, before = front ++ [.char '\n']) :
    Delimited (before ++ other) := by
  rcases lineStart with rfl | ⟨front, rfl⟩
  · exact delimitedOther
  · rw [List.append_assoc] at delimited ⊢
    refine delimited.replace_end (.char (by simp) delimitedOther) ?_
    intro brace
    exact absurd brace (by simp)

/-- A return goes in front of the white space of the last end statement. -/
theorem exists_ensureReturn_eq_join
    {before behind : List (Piece Statement)}
    (delimited : Delimited (before ++ .phrase ending :: behind))
    {indent : Text}
    (noBrace : '{' ∉ indent)
    (none :
      Return.form.phrases (form.join (before ++ .phrase ending :: behind)) = [])
    (found : (form.join (before ++ .phrase ending :: behind)).breakOnLast? Marker.closer =
      some (form.join before, form.join behind)) :
    ∃ (front : List (Piece Statement)) (margin gap spacing : Text),
      before = front ++ spacing.map .char ∧
      Delimited (front ++ (margin.map .char ++ .phrase returning ::
        (gap.map .char ++ (spacing.map .char ++ .phrase ending :: behind)))) ∧
      (form.join (before ++ .phrase ending :: behind)).ensureReturn indent =
        form.join (front ++ (margin.map .char ++ .phrase returning ::
          (gap.map .char ++ (spacing.map .char ++ .phrase ending :: behind)))) := by
  unfold Text.ensureReturn Form.occursIn
  rw [none, found]
  by_cases blank : (form.join before).lastLine.isBlank = true
  · obtain ⟨front, before_eq, join_eq, lineStart⟩ := exists_eq_append_lastLine blank
    refine ⟨front, indent, ['\n'], (form.join before).lastLine, before_eq, ?_, ?_⟩
    · have shape : before ++ .phrase ending :: behind =
          front ++ ((form.join before).lastLine.map .char ++ .phrase ending :: behind) := by
        conv => lhs; rw [before_eq, List.append_assoc]
      rw [shape] at delimited
      refine delimited.insert_line (Delimited.append_chars ?_ noBrace) lineStart
      exact .phrase isPlain_returning (.char (by simp) delimited.of_append)
    · change (if (form.join before).lastLine.isBlank = true then _ else _) = _
      rw [if_pos blank, ← join_eq]
      simp only [Form.join_append, join_map_char, Form.join_cons, Piece.text_phrase,
        List.append_assoc]
      rfl
  · refine ⟨before, [], [], [], (List.append_nil before).symm, ?_, ?_⟩
    · refine delimited.replace_end (.phrase isPlain_returning delimited.of_append) ?_
      intro _
      rfl
    · change (if (form.join before).lastLine.isBlank = true then _ else _) = _
      rw [if_neg blank]
      simp only [Form.join_append, Form.join_cons, Piece.text_phrase, List.map_nil,
        List.nil_append, List.append_assoc]
      rfl

/-- A delimited text without a return gets one in front of its last end statement. -/
theorem ensureReturn_join
    {pieces : List (Piece Statement)}
    (delimited : Delimited pieces)
    {indent : Text}
    (noBrace : '{' ∉ indent) :
    (∃ result, ReturnsAtEnd pieces result ∧ Delimited result ∧
      (form.join pieces).ensureReturn indent = form.join result ∧
      (pieces.filterMap Piece.phrase?).filterMap return? = []) ∨
    ((form.join pieces).ensureReturn indent = form.join pieces ∧
      ((pieces.filterMap Piece.phrase?).filterMap return? ≠ [] ∨
        ending ∉ pieces.filterMap Piece.phrase?)) := by
  have returns := Return.form_isKind.phrases_join delimited
  by_cases none : (pieces.filterMap Piece.phrase?).filterMap return? = []
  · rcases breakOnLast?_join delimited with ⟨notFound, absent⟩ | ⟨before, behind, rfl, found⟩
    · right
      unfold Text.ensureReturn Form.occursIn
      rw [returns, none, notFound]
      exact ⟨rfl, .inr absent⟩
    · left
      obtain ⟨front, margin, gap, spacing, rfl, resultDelimited, equal⟩ :=
        exists_ensureReturn_eq_join delimited noBrace (returns.trans none) found
      refine ⟨_, ?_, resultDelimited, equal, none⟩
      rw [List.append_assoc]
      exact .intro front margin gap spacing behind
  · right
    unfold Text.ensureReturn Form.occursIn
    rw [returns]
    simp [none]

end Statement

/-! ## All passes -/

/-- The text is a sequence of statements without double braces in them, separated by text without
double opening braces. -/
def Text.Unnested (text : Text) : Prop :=
  ∃ pieces, Statement.Delimited pieces ∧ Statement.form.join pieces = text

/-- The pieces of a template with its accumulator declared and its prints collected. -/
def Statement.gathered
    (accumulator indent : Text)
    (pieces : List (Piece Statement)) : List (Piece Statement) :=
  (declared accumulator indent pieces).map (Piece.map (collected accumulator))

/-- A kind of statement with which neither declaring nor collecting has to do is found as before. -/
theorem Statement.filterMap_gathered
    {β : Type}
    {kind? : Statement → Option β}
    {accumulator : Text}
    (other : kind? (Accumulator.declaring accumulator) = none)
    (kept : ∀ statement : Statement, kind? (statement.collected accumulator) = kind? statement)
    (indent : Text)
    (pieces : List (Piece Statement)) :
    ((gathered accumulator indent pieces).filterMap Piece.phrase?).filterMap kind? =
      (pieces.filterMap Piece.phrase?).filterMap kind? := by
  unfold gathered
  rw [Form.filterMap_phrase?_map_of_kept kept, filterMap_declared other]

/-- Before a return is added, the output of the template has been gathered. -/
theorem Template.prepared_eq_ensureReturn
    {accumulator indent : Text}
    (isName : accumulator.IsName)
    (noBrace : '{' ∉ indent)
    {template : Template}
    {pieces : List (Piece Statement)}
    (delimited : Statement.Delimited pieces)
    (text_eq : Statement.form.join pieces = template.text) :
    Statement.Delimited (Statement.gathered accumulator indent pieces) ∧
      template.prepared accumulator indent =
        (Statement.form.join (Statement.gathered accumulator indent pieces)).ensureReturn indent := by
  have declared := Statement.delimited_declared isName noBrace delimited
  refine ⟨declared.map fun statement => Statement.isPlain_collected isName, ?_⟩
  change ((template.text.declareAccumulator accumulator indent).collectPrints
    accumulator).ensureReturn indent = _
  unfold Statement.gathered
  rw [← text_eq, Statement.declareAccumulator_join delimited, Text.collectPrints_join declared]

/-- Preparing a template gathers its output and adds a return if there is none. -/
theorem Template.exists_prepared_eq_join
    {accumulator indent : Text}
    (isName : accumulator.IsName)
    (noBrace : '{' ∉ indent)
    {template : Template}
    {pieces : List (Piece Statement)}
    (delimited : Statement.Delimited pieces)
    (text_eq : Statement.form.join pieces = template.text) :
    ∃ prepared, Statement.Delimited prepared ∧
      template.prepared accumulator indent = Statement.form.join prepared ∧
      ((Statement.ReturnsAtEnd (Statement.gathered accumulator indent pieces) prepared ∧
          ((Statement.gathered accumulator indent pieces).filterMap Piece.phrase?).filterMap
            Statement.return? = []) ∨
        (prepared = Statement.gathered accumulator indent pieces ∧
          (((Statement.gathered accumulator indent pieces).filterMap Piece.phrase?).filterMap
              Statement.return? ≠ [] ∨
            Statement.ending ∉
              (Statement.gathered accumulator indent pieces).filterMap Piece.phrase?))) := by
  obtain ⟨gathered, text⟩ := prepared_eq_ensureReturn isName noBrace delimited text_eq
  rw [text]
  rcases Statement.ensureReturn_join gathered noBrace with
    ⟨result, returns, resultDelimited, equal, none⟩ | ⟨same, reason⟩
  · exact ⟨result, resultDelimited, equal, .inl ⟨returns, none⟩⟩
  · exact ⟨_, gathered, same, .inr ⟨rfl, reason⟩⟩

/-- Threading a template changes its text only. -/
theorem Template.eq_of_thread
    {context : ThreadingContext}
    {config : Config}
    {template result : Template}
    (succeeds : template.thread context config = .ok result) :
    result = { template with
      text :=
        if template.signature.isProducing then
          (context.threadKnownCalls (template.prepared context.names.accumulator
            config.indent)).returnOutput context.names.accumulator
        else context.threadKnownCalls template.text } := by
  unfold thread at succeeds
  split at succeeds
  next producing =>
    obtain ⟨threaded, found, equal⟩ := bind_eq_ok_iff.mp succeeds
    rw [← pure_eq_ok_iff.mp equal, if_pos producing,
      ThreadingContext.eq_threadKnownCalls_of_threadCalls found]
  next pure =>
    obtain ⟨threaded, found, equal⟩ := bind_eq_ok_iff.mp succeeds
    rw [← pure_eq_ok_iff.mp equal, if_neg pure,
      ThreadingContext.eq_threadKnownCalls_of_threadCalls found]

/-- Threading templates threads each of them. -/
theorem Templates.forall₂_of_thread
    {context : ThreadingContext}
    {config : Config}
    {templates threaded : Templates}
    (succeeds : templates.thread context config = .ok threaded) :
    List.Forall₂ (fun template result => template.thread context config = .ok result)
      templates threaded := by
  unfold thread at succeeds
  induction templates generalizing threaded with
  | nil =>
      rw [List.mapM_nil, pure_eq_ok_iff] at succeeds
      rw [← succeeds]
      exact .nil
  | cons template others inductionHypothesis =>
      rw [List.mapM_cons] at succeeds
      obtain ⟨first, found, succeeds⟩ := bind_eq_ok_iff.mp succeeds
      obtain ⟨rest, foundRest, equal⟩ := bind_eq_ok_iff.mp succeeds
      rw [← pure_eq_ok_iff.mp equal]
      exact .cons found (inductionHypothesis foundRest)

end OutputThreading
