import OutputThreading.Proofs.Comment
import OutputThreading.Proofs.Line
import OutputThreading.Proofs.Program.Agreement
import OutputThreading.Proofs.Relabeling.Program

/-!
# Comments that are kept

Lines are wrapped with the comments in them, so a comment becomes part of a statement and is read as
any other text (`kept_comments_are_read_as_text`): what a comment seems to print and call is printed
and called.  If it stands on one line, holds no brace, and has no say in what its statement marks,
prints, returns and calls, the output of the program is the same without it
(`Text.outputs_eq_without_comments`).
-/

namespace OutputThreading

/-- The text with and without the white space at its ends. -/
def Text.trimmings (text : Text) : List Text :=
  [text, text.trimStart, text.trimEnd, text.trim]

theorem Text.trimEnd_mem_trimmings
    {text part : Text}
    (member : part ∈ text.trimmings) :
    part.trimEnd ∈ text.trimmings := by
  simp only [trimmings, List.mem_cons, List.not_mem_nil, or_false] at member ⊢
  rcases member with rfl | rfl | rfl | rfl
  · exact .inr (.inr (.inl rfl))
  · exact .inr (.inr (.inr rfl))
  · exact .inr (.inr (.inl (trimEnd_trimEnd text)))
  · exact .inr (.inr (.inr (trimEnd_trim text)))

/-! ## Statements and their comments -/

namespace Statement

/-- The comments of the statement have no say in what it marks, prints, returns and calls, whether or
not the white space at its ends is trimmed when they are erased. -/
def IgnoresComments (statement : Statement) : Prop :=
  Comment.form.phrases statement.interior ≠ [] →
    ∀ interior ∈ statement.withoutComments.interior.trimmings, statement.Alike ⟨interior⟩

instance (statement : Statement) : Decidable statement.IgnoresComments :=
  inferInstanceAs (Decidable (_ → ∀ interior ∈ _, _))

/-- The result is the statement without its comments, possibly trimmed, and the statement itself if it
has none. -/
structure Uncommented (statement result : Statement) : Prop where
  /-- The comments are erased. -/
  mem_trimmings : result.interior ∈ statement.withoutComments.interior.trimmings
  /-- Nothing changes without comments. -/
  eq_self : Comment.form.phrases statement.interior = [] → result = statement

theorem Uncommented.alike
    {statement result : Statement}
    (uncommented : statement.Uncommented result)
    (ignores : statement.IgnoresComments) :
    statement.Alike result := by
  by_cases none : Comment.form.phrases statement.interior = []
  · rw [uncommented.eq_self none]
    exact .refl statement
  · exact ignores none result.interior uncommented.mem_trimmings

theorem withoutComments_eq_self
    {statement : Statement}
    (none : Comment.form.phrases statement.interior = []) :
    statement.withoutComments = statement := by
  rw [withoutComments, Text.eraseComments_eq_self none]

theorem uncommented_withoutComments (statement : Statement) :
    statement.Uncommented statement.withoutComments :=
  ⟨List.mem_cons_self, withoutComments_eq_self⟩

theorem forall₂_uncommented (statements : List Statement) :
    List.Forall₂ Uncommented statements (statements.map withoutComments) := by
  rw [List.forall₂_map_right_iff, List.forall₂_same]
  exact fun statement _ => statement.uncommented_withoutComments

theorem forall₂_alike_of_uncommented
    {statements results : List Statement}
    (uncommented : List.Forall₂ Uncommented statements results)
    (ignore : ∀ statement ∈ statements, statement.IgnoresComments) :
    List.Forall₂ Alike statements results :=
  ((List.forall₂_and_left _ _).mpr ⟨ignore, uncommented⟩).imp
    fun _ _ both => both.2.alike both.1

end Statement

/-! ## Lines without comments -/

namespace Text

/-- A line with braces at its ends keeps them. -/
theorem isWrapped_eraseComments
    {line : Text}
    (flat : line.HasFlatComments)
    (wrapped : line.isWrapped = true) :
    line.eraseComments.isWrapped = true := by
  obtain ⟨inside, trimmed⟩ := (isWrapped_iff line).mp wrapped
  have blankBefore : ∀ c ∈ line.leadingSpace, Character.isSpace c = true :=
    fun c => isSpace_of_mem_leadingSpace
  have blankBehind : ∀ c ∈ line.trimStart.trailingSpace, Character.isSpace c = true :=
    fun c => isSpace_of_mem_trailingSpace
  have parts := line.leadingSpace_append_trim_append
  rw [trimmed] at parts
  rw [← parts] at flat
  obtain ⟨_, erased⟩ := Statement.eraseComments_append_text_append flat
  rw [parts, eraseComments_of_notMem (notMem_of_isSpace blankBefore (by decide)),
    eraseComments_of_notMem (notMem_of_isSpace blankBehind (by decide))] at erased
  rw [isWrapped_iff, erased, trim_append_append blankBefore blankBehind, trim_text]
  exact ⟨_, rfl⟩

end Text

namespace Statement

theorem forall₂_concat_iff
    {relation : Statement → Statement → Prop}
    {before behind : List Statement}
    {left right : Statement} :
    List.Forall₂ relation (before ++ [left]) (behind ++ [right]) ↔
      List.Forall₂ relation before behind ∧ relation left right := by
  rw [← List.forall₂_reverse_iff, List.reverse_concat, List.reverse_concat, List.forall₂_cons,
    List.forall₂_reverse_iff, and_comm]

/-- The first statement between the braces of a line is trimmed when its comments are erased. -/
theorem forall₂_uncommented_trimStart
    {statement : Statement}
    (trimmed : statement.interior.trimStart = statement.interior)
    (statements : List Statement) :
    List.Forall₂ Uncommented (statement :: statements)
      (⟨statement.withoutComments.interior.trimStart⟩ :: statements.map withoutComments) := by
  refine .cons ⟨?_, fun none => ?_⟩ (forall₂_uncommented statements)
  · exact List.mem_cons_of_mem _ List.mem_cons_self
  · rw [withoutComments_eq_self none, trimmed]

/-- The last statement between the braces of a line is trimmed when its comments are erased. -/
theorem forall₂_uncommented_trimEnd
    {statement result : Statement}
    (trimmed : statement.interior.trimEnd = statement.interior)
    {statements results : List Statement}
    (uncommented : List.Forall₂ Uncommented (statements ++ [statement]) (results ++ [result])) :
    List.Forall₂ Uncommented (statements ++ [statement])
      (results ++ [⟨result.interior.trimEnd⟩]) := by
  rw [forall₂_concat_iff] at uncommented ⊢
  refine ⟨uncommented.1, Text.trimEnd_mem_trimmings uncommented.2.mem_trimmings, fun none => ?_⟩
  rw [uncommented.2.eq_self none, trimmed]

/-- A bare line shows its statements without their comments, or none if there is nothing but
comments. -/
theorem exists_shows_eraseComments_of_bare
    {line : Text}
    {statements : List Statement}
    (flat : line.HasFlatComments)
    (shows : (Statement.mk line.trim).text.Shows statements)
    (ignore : ∀ statement ∈ statements, statement.IgnoresComments) :
    ∃ others, line.eraseComments.wrapLine.Shows others ∧
      List.Forall₂ Alike (live statements) (live others) := by
  have blankBefore : ∀ c ∈ line.leadingSpace, Character.isSpace c = true :=
    fun c => Text.isSpace_of_mem_leadingSpace
  have blankBehind : ∀ c ∈ line.trimStart.trailingSpace, Character.isSpace c = true :=
    fun c => Text.isSpace_of_mem_trailingSpace
  obtain ⟨erased, phrases⟩ := Text.eraseComments_append_append
    (Text.notMem_of_isSpace blankBefore (by decide))
    (Text.notMem_of_isSpace blankBehind (by decide)) line.trim
  rw [line.leadingSpace_append_trim_append] at erased phrases
  obtain ⟨erasedBraces, phrasesBraces⟩ := Text.eraseComments_append_append
    (by decide : '/' ∉ opening) (by decide : '/' ∉ closing) line.trim
  rw [← List.append_assoc, ← List.append_assoc] at erasedBraces
  rw [← List.append_assoc, ← phrases] at phrasesBraces
  have flatBraces : (Statement.mk line.trim).text.HasFlatComments := by
    unfold Text.HasFlatComments at flat ⊢
    rw [text, phrasesBraces]
    exact flat
  have showsErased : (Statement.mk line.trim.eraseComments).text.Shows
      (statements.map withoutComments) := by
    rw [text, ← erasedBraces]
    exact shows.eraseComments flatBraces
  obtain ⟨first, rest, rfl, _, firstTrimmed, _⟩ := shows.exists_trimStart
  obtain ⟨_, _, cons_eq, showsTrimmed, _, noBrace⟩ := showsErased.exists_trimStart
  obtain ⟨rfl, rfl⟩ := List.cons.inj cons_eq
  have uncommented := forall₂_uncommented_trimStart (firstTrimmed line.trimStart_trim) rest
  have trim_eq : line.eraseComments.trim = line.trim.eraseComments.trim := by
    rw [erased, Text.trim_append_append blankBefore blankBehind]
  by_cases blank : line.trim.eraseComments.trim = []
  · -- an empty statement would be left, and it is idle
    have isBlank := (Text.trim_eq_nil_iff _).mp (trim_eq.trans blank)
    have noBraces := Text.brace_notMem_of_isSpace (List.all_eq_true.mp isBlank)
    have empty : line.trim.eraseComments.trimStart = [] :=
      List.dropWhile_eq_nil_iff.mpr (List.all_eq_true.mp ((Text.trim_eq_nil_iff _).mp blank))
    have emptyStatement : (Statement.mk []).text.Shows [⟨[]⟩] := .of_statement (by decide)
    rw [empty] at showsTrimmed
    rw [← showsTrimmed.phrases_eq, emptyStatement.phrases_eq] at uncommented
    have alike := forall₂_alike_live (forall₂_alike_of_uncommented uncommented ignore)
    have silent : live [⟨[]⟩] = [] := live_cons_of_isIdle (by decide +kernel) []
    rw [silent] at alike
    refine ⟨[], ?_, alike⟩
    rw [Text.wrapLine_of_isBlank isBlank]
    exact .of_notMem noBraces.1 noBraces.2
  · have notBlank : line.eraseComments.isBlank = false := by
      rw [← Bool.not_eq_true, ← Text.trim_eq_nil_iff, trim_eq]
      exact blank
    have notWrapped : line.eraseComments.isWrapped = false := by
      rw [← Bool.not_eq_true, Text.isWrapped_iff, trim_eq]
      rintro ⟨inside, wrapped⟩
      apply noBrace
      obtain ⟨more, whole⟩ := Text.trimEnd_prefix line.trim.eraseComments.trimStart
      rw [Text.trim] at wrapped
      rw [← whole, wrapped]
      rfl
    obtain ⟨last, others, concat_eq, showsBoth, _⟩ := showsTrimmed.exists_trimEnd
    obtain ⟨final, _, final_eq, _, finalTrimmed⟩ := shows.exists_trimEnd
    rw [concat_eq, final_eq] at uncommented
    have both := forall₂_uncommented_trimEnd (finalTrimmed line.trimEnd_trim) uncommented
    rw [← final_eq] at both
    refine ⟨_, ?_, forall₂_alike_live (forall₂_alike_of_uncommented both ignore)⟩
    rw [Text.wrapLine_of_bare notBlank notWrapped, trim_eq]
    have noBraces := Text.brace_notMem_of_isSpace
      fun c (member : c ∈ line.eraseComments.leadingSpace) =>
        Text.isSpace_of_mem_leadingSpace member
    exact (Text.Shows.of_notMem noBraces.1 noBraces.2).append showsBoth

/-- A line shows statements that are alike without its comments. -/
theorem exists_shows_wrapLine_eraseComments
    {line : Text}
    {statements : List Statement}
    (flat : line.HasFlatComments)
    (shows : line.wrapLine.Shows statements)
    (ignore : ∀ statement ∈ statements, statement.IgnoresComments) :
    ∃ others, line.eraseComments.wrapLine.Shows others ∧
      List.Forall₂ Alike (live statements) (live others) := by
  by_cases blank : line.isBlank = true
  · have noSlash : '/' ∉ line := Text.notMem_of_isBlank blank (by decide)
    rw [Text.eraseComments_of_notMem noSlash]
    exact ⟨statements, shows, List.forall₂_same.mpr fun statement _ => .refl statement⟩
  · by_cases wrapped : line.isWrapped = true
    · rw [Text.wrapLine_of_isWrapped wrapped] at shows
      rw [Text.wrapLine_of_isWrapped (Text.isWrapped_eraseComments flat wrapped)]
      exact ⟨_, shows.eraseComments flat, forall₂_alike_live
        (forall₂_alike_of_uncommented (forall₂_uncommented statements) ignore)⟩
    · rw [Bool.not_eq_true] at blank wrapped
      rw [Text.wrapLine_of_bare blank wrapped] at shows
      have noBraces := Text.brace_notMem_of_isSpace
        fun c (member : c ∈ line.leadingSpace) => Text.isSpace_of_mem_leadingSpace member
      exact exists_shows_eraseComments_of_bare flat (shows.of_append_left noBraces.1) ignore

/-! ## Texts without comments -/

/-- A wrapped text shows statements that are alike without its comments. -/
theorem exists_shows_wrapLines_eraseComments
    {text : Text}
    {statements : List Statement}
    (flat : text.HasFlatComments)
    (shows : text.wrapLines.Shows statements)
    (ignore : ∀ statement ∈ statements, statement.IgnoresComments) :
    ∃ others, text.eraseComments.wrapLines.Shows others ∧
      List.Forall₂ Alike (live statements) (live others) := by
  by_cases newline : '\n' ∈ text
  · obtain ⟨line, rest, text_eq, noBreak⟩ := List.eq_append_cons_of_mem newline
    have shorter : rest.length < text.length := by
      rw [text_eq, List.length_append, List.length_cons]
      omega
    rw [text_eq] at flat shows ⊢
    have noBreakErased : '\n' ∉ Text.eraseComments line :=
      fun member => noBreak (Text.mem_of_mem_eraseComments member)
    obtain ⟨flatLine, flatRest, erased⟩ := flat.of_append_cons (by decide)
    rw [Text.wrapLines_append_newline noBreak] at shows
    obtain ⟨before, behind, rfl, showsLine, showsRest⟩ := shows.exists_of_append_newline
    rw [List.forall_mem_append] at ignore
    rw [Text.Shows.wrapLine_dropReturn] at showsLine
    obtain ⟨lineOthers, showsLineOthers, lineAlike⟩ :=
      exists_shows_wrapLine_eraseComments flatLine showsLine ignore.1
    obtain ⟨restOthers, showsRestOthers, restAlike⟩ :=
      exists_shows_wrapLines_eraseComments flatRest showsRest ignore.2
    rw [← Text.Shows.wrapLine_dropReturn] at showsLineOthers
    refine ⟨lineOthers ++ restOthers, ?_, ?_⟩
    · have lone : Text.Shows ['\n'] [] := .of_notMem (by decide) (by decide)
      rw [erased, Text.wrapLines_append_newline noBreakErased]
      exact showsLineOthers.append (lone.append showsRestOthers)
    · rw [live_append, live_append]
      exact List.rel_append lineAlike restAlike
  · have noBreakErased : '\n' ∉ text.eraseComments :=
      fun member => newline (Text.mem_of_mem_eraseComments member)
    rw [Text.Shows.wrapLines_iff newline] at shows
    obtain ⟨others, showsOthers, alike⟩ := exists_shows_wrapLine_eraseComments flat shows ignore
    exact ⟨others, (Text.Shows.wrapLines_iff noBreakErased).mpr showsOthers, alike⟩
termination_by text.length
decreasing_by
  exact shorter

end Statement

/-- Comments change no output if they stand on one line, hold no brace, and have no say in what their
statements mark, print, return and call. -/
theorem Text.outputs_eq_without_comments
    (text : Text)
    (wellDelimited : text.wrapLines.WellDelimited)
    (flat : text.HasFlatComments)
    (ignore : ∀ statement ∈ Statement.form.phrases text.wrapLines, statement.IgnoresComments)
    (heads : ∀ source ∈ [text, text.eraseComments],
      ∀ statement ∈ Statement.form.phrases source.wrapLines, statement.ClosesQuote)
    {left right : List Text}
    (outputs : text.wrapLines.outputs = .ok left)
    (outputsWithout : text.eraseComments.wrapLines.outputs = .ok right) :
    left = right := by
  obtain ⟨pieces, flatPieces, join_eq⟩ := wellDelimited
  have shows : text.wrapLines.Shows (pieces.filterMap Piece.phrase?) :=
    ⟨pieces, flatPieces, join_eq, rfl⟩
  rw [shows.phrases_eq] at ignore
  obtain ⟨others, showsOthers, alike⟩ :=
    Statement.exists_shows_wrapLines_eraseComments flat shows ignore
  have resembles : text.wrapLines.Resembles text.eraseComments.wrapLines := by
    unfold Text.Resembles
    rw [shows.phrases_eq, showsOthers.phrases_eq]
    exact alike
  rw [List.forall_mem_cons, List.forall_mem_singleton] at heads
  exact resembles.outputs_eq shows.wellDelimited showsOthers.wellDelimited heads.1 heads.2 outputs
    outputsWithout

/-! ## Comments in a compilation -/

/-- A conceptual compilation leaves the threaded text as it is. -/
theorem Config.threadText_of_compile
    {config : Config}
    (conceptual : config.mode = .conceptual)
    {source result : Text}
    (succeeds : compile config source = .ok result) :
    config.threadText source.wrapLines = .ok result := by
  unfold compile Mode.normalize Mode.finish at succeeds
  rw [conceptual] at succeeds
  obtain ⟨made, found, equal⟩ := bind_eq_ok_iff.mp succeeds
  rw [← pure_eq_ok_iff.mp equal]
  exact found

/-- Where comments are kept, they are read as any other text.  With an inert character in the place of
the slash there are no comments, and the text is compiled to the same result with that character.  So
the output is the same without the comments exactly if it is the same without what stands in their
place; and if statements do not nest, exactly if the program that the text describes with them has the
output of the one that it describes without them. -/
theorem kept_comments_are_read_as_text
    (text : Text)
    (config : Config)
    (conceptual : config.mode = .conceptual)
    (reserved : config.naming = .reserved)
    (mark : Char)
    (inert : Character.isInert mark = true)
    {left right : Text}
    (compiled : compile config text = .ok left)
    (compiledWithout : compile config text.eraseComments = .ok right) :
    let disguise := Relabeling.swap '/' mark (by decide +kernel) inert
    (mark ∉ text → (text.relabel disguise).eraseComments = text.relabel disguise) ∧
    (∃ plain, compile (config.relabel disguise) (text.relabel disguise) = .ok plain ∧
      plain = left.relabel disguise ∧
      (left.appends Accumulator.defaultName = right.appends Accumulator.defaultName ↔
        plain.appends Accumulator.defaultName =
          (right.appends Accumulator.defaultName).map (Text.relabel disguise))) ∧
    ('{' ∉ config.indent → text.wrapLines.WellDelimited →
      text.eraseComments.wrapLines.WellDelimited →
      (left.appends Accumulator.defaultName = right.appends Accumulator.defaultName ↔
        text.wrapLines.outputs = text.eraseComments.wrapLines.outputs)) := by
  intro disguise
  have isName : Accumulator.defaultName.IsName := by decide
  refine ⟨fun absent => ?_, ⟨left.relabel disguise, ?_, rfl, ?_⟩, ?_⟩
  · apply Text.eraseComments_of_notMem
    intro member
    obtain ⟨c, isChar, label⟩ := List.mem_map.mp member
    have label_eq : c = mark := by
      rw [← disguise.exchange.injective.eq_iff, label]
      exact (Equiv.swap_apply_right '/' mark).symm
    exact absent (label_eq ▸ isChar)
  · rw [compile_relabel disguise config (by rw [conceptual]; rfl), compiled]
    rfl
  · rw [Text.appends_relabel disguise isName]
    exact (List.map_injective_iff.mpr (Text.relabel_injective disguise)).eq_iff.symm
  · intro noBrace wellDelimited wellDelimitedWithout
    rw [Config.outputs_eq_of_threadText reserved noBrace wellDelimited
        (Config.threadText_of_compile conceptual compiled),
      Config.outputs_eq_of_threadText reserved noBrace wellDelimitedWithout
        (Config.threadText_of_compile conceptual compiledWithout), Except.ok.injEq]

/-- A call in a comment is threaded as it is with hash signs in the place of the slashes. -/
theorem kept_comments_are_read_as_text_called :
    let text : Text := "define \"g\"\nprint 1\nend\n/* execTemplate \"g\" */".toList
    let config : Config := { mode := .conceptual }
    let disguise := Relabeling.swap '/' '#' (by decide +kernel) (by decide +kernel)
    ∃ left right plain, compile config text = .ok left ∧
      compile config text.eraseComments = .ok right ∧
      compile (config.relabel disguise) (text.relabel disguise) = .ok plain ∧
      (text.relabel disguise).eraseComments = text.relabel disguise ∧
      plain.appends Accumulator.defaultName = ["1".toList, "(execTemplate \"g\")".toList] ∧
      right.appends Accumulator.defaultName = ["1".toList] ∧
      text.wrapLines.outputs ≠ text.eraseComments.wrapLines.outputs := by
  intro text config disguise
  have evaluated : (compile config text >>= fun result =>
      pure (result.appends Accumulator.defaultName)) =
        Except.ok ["1".toList, "(execTemplate \"g\")".toList] := by
    decide +kernel
  have evaluatedWithout : (compile config text.eraseComments >>= fun result =>
      pure (result.appends Accumulator.defaultName)) = Except.ok ["1".toList] := by
    decide +kernel
  obtain ⟨left, compiled, appends⟩ := bind_eq_ok_iff.mp evaluated
  obtain ⟨right, compiledWithout, appendsWithout⟩ := bind_eq_ok_iff.mp evaluatedWithout
  rw [pure_eq_ok_iff] at appends appendsWithout
  have wellDelimited : text.wrapLines.WellDelimited :=
    ⟨Statement.form.split text.wrapLines, by decide +kernel,
      Statement.form.join_split text.wrapLines⟩
  have wellDelimitedWithout : text.eraseComments.wrapLines.WellDelimited :=
    ⟨Statement.form.split text.eraseComments.wrapLines, by decide +kernel,
      Statement.form.join_split text.eraseComments.wrapLines⟩
  obtain ⟨noComment, ⟨plain, disguised, plain_eq, _⟩, same_iff⟩ := kept_comments_are_read_as_text
    text config rfl rfl '#' (by decide +kernel) compiled compiledWithout
  refine ⟨left, right, plain, compiled, compiledWithout, disguised, noComment (by decide), ?_,
    appendsWithout, fun same => ?_⟩
  · rw [plain_eq, Text.appends_relabel disguise (by decide), appends]
    decide +kernel
  · have equal := (same_iff (by decide) wellDelimited wellDelimitedWithout).mpr same
    rw [appends, appendsWithout] at equal
    exact absurd equal (by decide)

/-- A comment that is kept can change the output: as part of a printed expression, over several lines
of which one is a print, with a call or a statement in it, in front of a print, between the lines of a
name, and behind a statement that is left open. -/
theorem kept_comments_change_output :
    let config : Config := { mode := .conceptual }
    let appendsOf (text : Text) : Except CompileError (List Text) := do
      return (← compile config text).appends Accumulator.defaultName
    let called : Text := (Statement.mk "define \"g\"".toList).text ++
      (Statement.mk "print 1".toList).text ++ Marker.closer
    let opened : Text := Print.opener ++ [' '] ++ (Statement.mk "define \"f\"".toList).text ++
      Marker.closer
    ∀ entry ∈ [
        ("print 1 /* one */".toList, ["1 /* one */".toList], ["1".toList]),
        ("/*\nprint 1\n*/".toList, ["1".toList], []),
        (called ++ "\n/* execTemplate \"g\" */".toList,
          ["1".toList, "(execTemplate \"g\")".toList], ["1".toList]),
        ((Statement.mk "$x".toList).text ++ "/* ".toList ++ (Statement.mk "print 1".toList).text ++
          " */".toList ++ (Statement.mk "$y".toList).text, ["1".toList], []),
        ("/* c */ print 1".toList, [], ["1".toList]),
        (("define \"a\n/* x */\nb\"\nprint 1\nend\n" ++
          "define \"a\n/* y */\nb\"\nprint 2\nend").toList, ["1".toList, "2".toList],
            ["1".toList]),
        (opened ++ "\n/* c */\n$y".toList, [Statement.opening ++ "/* c */".toList],
          [Statement.opening ++ "$y".toList])],
      appendsOf entry.1 = .ok entry.2.1 ∧
        appendsOf (Text.eraseComments entry.1) = .ok entry.2.2 ∧ entry.2.1 ≠ entry.2.2 := by
  decide +kernel

end OutputThreading
