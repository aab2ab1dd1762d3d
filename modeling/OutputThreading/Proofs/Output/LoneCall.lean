import OutputThreading.Proofs.Call.Balance
import OutputThreading.Proofs.Output

/-!
# Printing the result of a call

A statement that only calls a template whose result is all output, and a print of that call in
parentheses, both append the result of the call once, if nothing else stands in the print, not even
white space.  With white space around the call or behind the parentheses the print is not taken for
one of a lone call: a second append is left over, and it adds an empty line to the output
(`ThreadingContext.printed_call_appends_once_iff`).
-/

namespace OutputThreading

/-! ## Statements with a single call -/

namespace ThreadingContext

variable {context : ThreadingContext}

/-- Calls of defined templates are never errors. -/
theorem threadCalls_of_known
    {text : Text}
    (known : ∀ callee ∈ text.callees, (context.signatures callee).isSome = true)
    (unknownCalls : UnknownCalls) :
    context.threadCalls unknownCalls text = .ok (context.threadKnownCalls text) := by
  have none : context.undefinedCall? text = none := by
    rw [undefinedCall?, List.findSome?_eq_none_iff]
    rintro ⟨line, statement⟩ member
    rw [Option.map_eq_none_iff, undefinedCallee?, List.find?_eq_none]
    intro callee called
    have among : statement ∈ Statement.form.phrases text := by
      rw [← Form.map_snd_lined]
      exact List.mem_map_of_mem member
    have isKnown := known callee (List.mem_flatMap.mpr ⟨statement, among, called⟩)
    rwa [Option.isNone_iff_eq_none, ← ne_eq, ← Option.isSome_iff_ne_none]
  unfold threadCalls
  rw [none]
  cases unknownCalls <;> rfl

/-- Braces around a line break stay as they are. -/
theorem threadCalls_text_of_newline
    {statement : Statement}
    (plain : statement.IsPlain)
    (newline : '\n' ∈ statement.interior)
    (unknownCalls : UnknownCalls) :
    context.threadCalls unknownCalls statement.text = .ok statement.text := by
  have none : Statement.form.phrases statement.text = [] := by
    rw [Form.phrases, Statement.split_text_of_newline plain newline,
      Form.filterMap_phrase?_map_char]
  rw [threadCalls_of_known (by simp [Text.callees, none]), threadKnownCalls,
    Statement.form.replaceInLine_eq_self (by simp [none])]

/-- A statement with a single call whose result is all output becomes an append of that result, and
behind it the statement with an empty text in the place of the call, unless nothing is left of it. -/
theorem threadCalls_text_of_split
    {statement : Statement}
    (plain : statement.IsPlain)
    (inline : '\n' ∉ statement.interior)
    {front behind : Text}
    {call : Call}
    (split_eq : Call.form.split statement.interior =
      front.map .char ++ .phrase call :: behind.map .char)
    (bare : context.signatures call.callee = some ⟨.producing, .bare⟩)
    (unknownCalls : UnknownCalls) :
    context.threadCalls unknownCalls statement.text = .ok
      (Accumulator.append context.names.accumulator (['('] ++ call.normalized.text ++ [')']) ++
        if context.isSpent statement then []
        else '\n' :: (Statement.mk (front ++ (emptyValue ++ behind))).text) := by
  have split_text := Statement.split_text_of_inline plain inline
  have callees : Text.callees statement.text = [call.callee] := by
    rw [Text.callees, Form.phrases, split_text]
    show Statement.callees statement ++ [] = _
    rw [Statement.callees, Form.phrases, split_eq, List.filterMap_append,
      Form.filterMap_phrase?_map_char, List.filterMap_cons_some (Piece.phrase?_phrase call),
      Form.filterMap_phrase?_map_char]
    rfl
  have setup : context.setupStatements statement =
      [Accumulator.appending context.names.accumulator
        (['('] ++ call.normalized.text ++ [')'])] := by
    rw [context.setupStatements_eq_of_split split_eq, setupOf, bare]
  have value : context.withValues statement = ⟨front ++ (emptyValue ++ behind)⟩ := by
    have rest := context.valuesFrom_map_char_append [call.callee] behind []
    rw [List.append_nil, valuesFrom, List.append_nil] at rest
    have interior := context.interior_withValues statement
    rw [split_eq, valuesFrom_map_char_append, valuesFrom, threadCall?, bare, rest] at interior
    exact congrArg Statement.mk interior
  rw [threadCalls_of_known (by simp [callees, bare]), threadKnownCalls, Form.replaceInLine,
    split_text, Form.replaceInLineFrom, threadStatement_eq_intercalate, threadedStatements, setup,
    value]
  cases context.isSpent statement with
  | true => simp [Form.replaceInLineFrom, Accumulator.appending, Accumulator.append]
  | false =>
      simp [Form.replaceInLineFrom, Accumulator.appending, Accumulator.append, Text.indentation,
        List.intercalate]

end ThreadingContext

/-! ## Calls in parentheses -/

namespace Text

theorem isFlat_of_isIndent
    {spacing : Text}
    (indents : ∀ c ∈ spacing, Character.isIndent c = true) :
    spacing.IsFlat := by
  intro c member
  have indent := indents c member
  simp only [Character.isIndent, Bool.or_eq_true, decide_eq_true_eq] at indent
  rcases indent with rfl | rfl <;> decide

end Text

namespace Call

/-- The call in parentheses, with text around it inside of them and behind them. -/
def inParentheses (call : Call) (before behind after : Text) : Text :=
  '(' :: before ++ (call.text ++ (behind ++ ')' :: after))

/-- A call with a complete argument is all that is read of its text. -/
theorem WellFormed.split_text
    {call : Call}
    (formed : call.WellFormed)
    (complete : Argument.IsComplete call.argument) :
    form.split call.text = [.phrase call] := by
  have cut : Argument.split (call.argument ++ []) = (call.argument, []) :=
    complete.split_append fun c first => by cases first
  have found : form.read? (call.text ++ []) = some (call, []) := formed.read?_text_append cut
  rw [List.append_nil] at found
  rw [form.split_of_read? found, Form.split_nil]

section Blanks

variable {call : Call} {before behind after : Text}

/-- A call with a complete argument is read in parentheses, whatever blanks stand around it. -/
theorem WellFormed.split_inParentheses
    (formed : call.WellFormed)
    (complete : Argument.IsComplete call.argument)
    (indents : ∀ c ∈ before ++ behind ++ after, Character.isIndent c = true) :
    form.split (call.inParentheses before behind after) =
      ('(' :: before).map .char ++ .phrase call :: (behind ++ ')' :: after).map .char := by
  have blank : ∀ c ∈ before ++ behind ++ after, Character.isSpace c = true :=
    fun c member => Character.isSpace_of_isIndent (indents c member)
  have noLetter := Text.notMem_of_isSpace blank (by decide : Character.isSpace 'e' = false)
  simp only [List.mem_append, not_or] at noLetter
  have front : form.Skips ('(' :: before) (call.text ++ (behind ++ ')' :: after)) :=
    skips_of_notMem (by simp [noLetter]) _
  have rest : form.Skips (behind ++ ')' :: after) [] :=
    skips_of_notMem (by simp [noLetter]) _
  have blankBehind : ∀ c ∈ behind, Character.isSpace c = true :=
    fun c member => blank c (by simp [member])
  have cut : Argument.split (call.argument ++ (behind ++ ')' :: after)) =
      (call.argument, behind ++ ')' :: after) := by
    refine complete.split_append fun c first => ?_
    rw [Text.trimStart_append_solid blankBehind (by decide)] at first
    exact (Option.some.inj first).symm
  rw [inParentheses, form.split_append_of_skips front,
    form.split_of_read? (formed.read?_text_append cut), rest.split_eq]

/-- Delimiters of a call in parentheses are delimiters of the call. -/
theorem infix_inParentheses_append_iff
    (indents : ∀ c ∈ before ++ behind ++ after, Character.isIndent c = true)
    {pattern : Text}
    (delimiter : pattern.IsDelimiter)
    (rest : Text) :
    pattern <:+: call.inParentheses before behind after ++ rest ↔
      pattern <:+: call.text ∨ pattern <:+: rest := by
  have flat := Text.isFlat_of_isIndent indents
  rw [Text.isFlat_append_iff, Text.isFlat_append_iff] at flat
  have opens : Text.IsFlat ('(' :: before) := by
    have paren : Text.IsFlat ['('] := by decide
    exact Text.isFlat_append_iff.mpr ⟨paren, flat.1.1⟩
  have closes : Text.IsFlat (behind ++ ')' :: after) := by
    have paren : Text.IsFlat [')'] := by decide
    exact Text.isFlat_append_iff.mpr ⟨flat.1.2, Text.isFlat_append_iff.mpr ⟨paren, flat.2⟩⟩
  have parts : call.inParentheses before behind after ++ rest =
      [] ++ ('(' :: before ++ (call.text ++ (behind ++ ')' :: after ++ rest))) := by
    simp [inParentheses]
  rw [parts, opens.infix_iff (by simp) delimiter, closes.infix_iff (by simp) delimiter,
    List.infix_nil, or_iff_right delimiter.1]

theorem newline_mem_inParentheses_iff
    (indents : ∀ c ∈ before ++ behind ++ after, Character.isIndent c = true) :
    '\n' ∈ call.inParentheses before behind after ↔ '\n' ∈ call.text := by
  rw [← List.singleton_infix_iff, ← List.singleton_infix_iff,
    ← List.append_nil (call.inParentheses before behind after),
    infix_inParentheses_append_iff indents (by decide)]
  exact or_iff_left (by decide)

end Blanks

end Call

/-! ## Printed calls -/

namespace Statement

/-- A plain statement alone is collected if it is a print. -/
theorem collectPrints_text
    {statement : Statement}
    (plain : statement.IsPlain)
    (accumulator : Text) :
    Text.collectPrints statement.text accumulator = (statement.collected accumulator).text := by
  have single := Text.collectPrints_join (.phrase plain .nil) accumulator
  rw [List.map_singleton, Form.join_cons, Form.join_cons, Form.join_nil, List.append_nil,
    List.append_nil] at single
  exact single

/-- The statement that prints a call in parentheses. -/
def printing (call : Call) (before behind after : Text) : Statement :=
  ⟨"print ".toList ++ call.inParentheses before behind after⟩

end Statement

section Printing

variable {call : Call} {before behind after : Text}

theorem Statement.isPlain_printing
    (indents : ∀ c ∈ before ++ behind ++ after, Character.isIndent c = true)
    (plain : (Statement.mk call.text).IsPlain) :
    (Statement.printing call before behind after).IsPlain := by
  refine isPlain_append (by decide) (by decide) ?_ ?_
  · rw [← List.append_nil (call.inParentheses _ _ _),
      Call.infix_inParentheses_append_iff indents (by decide)]
    rintro (inside | inside)
    · exact plain.opensOnce (List.infix_cons inside)
    · exact absurd inside (by decide)
  · rw [Call.infix_inParentheses_append_iff indents (by decide)]
    rintro (inside | inside)
    · exact plain.closesOnce (List.infix_append_of_infix_left inside)
    · exact absurd inside (by decide)

theorem Statement.print?_printing (call : Call) (before behind after : Text) :
    (Statement.printing call before behind after).print? =
      if '\n' ∈ call.inParentheses before behind after then none
      else some ⟨[' '], call.inParentheses before behind after⟩ := by
  have interior : (Statement.printing call before behind after).interior =
      "print".toList ++ ([' '] ++ call.inParentheses before behind after) := rfl
  have blank : ∀ c ∈ [' '], Character.isSpace c = true :=
    List.forall_mem_singleton.mpr (by decide)
  have solid : Character.isSpace '(' = false := by decide
  have leading : Text.leadingSpace ([' '] ++ call.inParentheses before behind after) = [' '] :=
    Text.leadingSpace_append_solid blank solid _
  have trimmed : Text.trimStart ([' '] ++ call.inParentheses before behind after) =
      call.inParentheses before behind after :=
    Text.trimStart_append_solid blank solid _
  rw [print?, interior, Text.after?_append]
  simp only [Option.bind_eq_bind, Option.bind_some, leading, trimmed, List.cons_ne_nil, false_or]

namespace ThreadingContext

variable {context : ThreadingContext}

/-- The parentheses hold nothing but the call. -/
theorem isLoneOutput_inParentheses_iff
    (formed : call.WellFormed)
    (complete : Argument.IsComplete call.argument)
    (bare : context.signatures call.callee = some ⟨.producing, .bare⟩)
    (indents : ∀ c ∈ before ++ behind ++ after, Character.isIndent c = true) :
    context.isLoneOutput (call.inParentheses before behind after) = true ↔
      before = [] ∧ behind = [] ∧ after = [] := by
  rw [isLoneOutput_iff, formed.split_inParentheses complete indents]
  constructor
  · rintro ⟨other, split_eq, _⟩
    have rest := (List.cons.inj split_eq).2
    cases before with
    | nil =>
        have rest := (List.cons.inj rest).2
        cases behind with
        | nil => simpa using rest
        | cons c behind => simp at rest
    | cons c before => cases (List.cons.inj rest).1
  · rintro ⟨rfl, rfl, rfl⟩
    exact ⟨call, rfl, bare⟩

/-- A statement that is nothing but a call is spent. -/
theorem isSpent_of_split
    {statement : Statement}
    (split_eq : Call.form.split statement.interior = [.phrase call]) :
    context.isSpent statement = true := by
  rw [isSpent, Form.occurrences, split_eq]
  rfl

section Blanks

variable
  (formed : call.WellFormed)
  (complete : Argument.IsComplete call.argument)
  (plain : (Statement.mk call.text).IsPlain)
  (bare : context.signatures call.callee = some ⟨.producing, .bare⟩)
  (indents : ∀ c ∈ before ++ behind ++ after, Character.isIndent c = true)
  (unknownCalls : UnknownCalls)

include formed complete plain bare in
/-- A call whose result is all output becomes an append of it. -/
theorem threadCalls_call (inline : '\n' ∉ call.text) :
    context.threadCalls unknownCalls (Statement.mk call.text).text = .ok
      (Accumulator.append context.names.accumulator
        (['('] ++ call.normalized.text ++ [')'])) := by
  have split_eq : Call.form.split (Statement.mk call.text).interior =
      List.map .char ([] : Text) ++ .phrase call :: List.map .char ([] : Text) :=
    formed.split_text complete
  rw [threadCalls_text_of_split plain inline split_eq bare, isSpent_of_split split_eq, if_pos rfl,
    List.append_nil]

include formed complete plain bare indents in
/-- A print of such a call becomes an append of its result, and one of an empty text behind it if
there are blanks in the print. -/
theorem threadCalls_printing
    (generated : context.names.IsGenerated)
    (inline : '\n' ∉ call.text) :
    context.threadCalls unknownCalls ((Statement.printing call before behind after).text.collectPrints
        context.names.accumulator) = .ok
      (Accumulator.append context.names.accumulator (['('] ++ call.normalized.text ++ [')']) ++
        if before = [] ∧ behind = [] ∧ after = [] then []
        else '\n' :: Accumulator.append context.names.accumulator
          ('(' :: before ++ (emptyValue ++ (behind ++ ')' :: after)))) := by
  have isName := generated.accumulator_isName
  have plainPrint := Statement.isPlain_printing indents plain
  have inlinePrint := (Call.newline_mem_inParentheses_iff indents).not.mpr inline
  have collected : (Statement.printing call before behind after).collected
      context.names.accumulator = Accumulator.appending context.names.accumulator
        (call.inParentheses before behind after) := by
    rw [Statement.collected, Statement.print?_printing, if_neg inlinePrint]
    rfl
  have plainAppend := Statement.isPlain_appending isName plainPrint
    (List.suffix_append "print ".toList (call.inParentheses before behind after))
  have inlineAppend : '\n' ∉ (Accumulator.appending context.names.accumulator
      (call.inParentheses before behind after)).interior := by
    rw [Accumulator.appending, List.mem_append, not_or]
    exact ⟨(Accumulator.isFlat_appendHead isName).notMem (by decide), inlinePrint⟩
  have noLetter := generated.notMem_accumulator (by decide : 'e'.isDigit = false) (by decide)
  have split_eq : Call.form.split (Accumulator.appending context.names.accumulator
      (call.inParentheses before behind after)).interior =
        (Accumulator.appendHead context.names.accumulator ++ '(' :: before).map .char ++
          .phrase call :: (behind ++ ')' :: after).map .char := by
    rw [Accumulator.appending,
      Call.form.split_append_of_skips (Accumulator.skips_appendHead noLetter _),
      formed.split_inParentheses complete indents, ← List.append_assoc, ← List.map_append]
  rw [Statement.collectPrints_text plainPrint, collected,
    threadCalls_text_of_split plainAppend inlineAppend split_eq bare, isSpent_appending generated,
    ← if_congr (isLoneOutput_inParentheses_iff formed complete bare indents) rfl rfl,
    List.append_assoc (Accumulator.appendHead _)]
  rfl

include plain indents in
/-- Prints that go over a line break stay as they are. -/
theorem threadCalls_printing_of_newline (newline : '\n' ∈ call.text) :
    context.threadCalls unknownCalls ((Statement.printing call before behind after).text.collectPrints
        context.names.accumulator) = .ok (Statement.printing call before behind after).text := by
  have plainPrint := Statement.isPlain_printing indents plain
  have newlinePrint := (Call.newline_mem_inParentheses_iff indents).mpr newline
  have collected : (Statement.printing call before behind after).collected
      context.names.accumulator = Statement.printing call before behind after := by
    rw [Statement.collected, Statement.print?_printing, if_pos newlinePrint]
    rfl
  rw [Statement.collectPrints_text plainPrint, collected,
    threadCalls_text_of_newline plainPrint (List.mem_append_right _ newlinePrint)]

end Blanks

/-- A print of a call whose result is all output becomes the single append that the call alone
becomes, exactly if there are no blanks in the print and the call stands on one line.  With blanks
in the print an empty text is appended as well. -/
theorem printed_call_appends_once_iff
    (generated : context.names.IsGenerated)
    (formed : call.WellFormed)
    (complete : Argument.IsComplete call.argument)
    (plain : (Statement.mk call.text).IsPlain)
    (bare : context.signatures call.callee = some ⟨.producing, .bare⟩)
    (indents : ∀ c ∈ before ++ behind ++ after, Character.isIndent c = true)
    (unknownCalls : UnknownCalls) :
    ∃ printed alone,
      context.threadCalls unknownCalls
        ((Statement.printing call before behind after).text.collectPrints
          context.names.accumulator) = .ok printed ∧
      context.threadCalls unknownCalls (Statement.mk call.text).text = .ok alone ∧
      (printed = alone ↔ before = [] ∧ behind = [] ∧ after = [] ∧ '\n' ∉ call.text) ∧
      ('\n' ∉ call.text →
        alone = Accumulator.append context.names.accumulator
          (['('] ++ call.normalized.text ++ [')']) ∧
        (printed = alone ∨ printed = alone ++ '\n' :: Accumulator.append context.names.accumulator
          ('(' :: before ++ (emptyValue ++ (behind ++ ')' :: after))))) := by
  by_cases newline : '\n' ∈ call.text
  · refine ⟨_, _, threadCalls_printing_of_newline plain indents unknownCalls newline,
      threadCalls_text_of_newline plain newline unknownCalls, ?_,
      fun inline => absurd newline inline⟩
    constructor
    · intro same
      -- the statements start with different words
      have letter := (List.cons.inj (List.cons.inj (List.cons.inj same).2).2).1
      exact absurd letter (by decide)
    · rintro ⟨_, _, _, inline⟩
      exact absurd newline inline
  · refine ⟨_, _,
      threadCalls_printing formed complete plain bare indents unknownCalls generated newline,
      threadCalls_call formed complete plain bare unknownCalls newline, ?_, fun _ => ⟨rfl, ?_⟩⟩
    · rw [List.append_right_eq_self]
      split
      next blank => simp [blank, newline]
      next notBlank => simpa [newline] using notBlank
    · split
      · exact .inl (List.append_nil _)
      · exact .inr rfl

/-- A call in tight parentheses, whose argument holds a parenthesis in a literal. -/
theorem printed_call_appends_once_iff_tight :
    let context : ThreadingContext :=
      ⟨⟨.reserved, Accumulator.defaultName, []⟩, fun name =>
        if name = "say".toList then some ⟨.producing, .bare⟩ else none⟩
    let call : Call := ⟨[' '], "say".toList, " (\"x)\")".toList⟩
    context.names.IsGenerated ∧ call.WellFormed ∧ Argument.IsComplete call.argument ∧
      (Statement.mk call.text).IsPlain ∧
      context.signatures call.callee = some ⟨.producing, .bare⟩ ∧
      ∃ printed,
        context.threadCalls .passthrough ((Statement.printing call [] [] []).text.collectPrints
          context.names.accumulator) = .ok printed ∧
        context.threadCalls .passthrough (Statement.mk call.text).text = .ok printed := by
  intro context call
  have generated : context.names.IsGenerated := NameSupply.isGenerated_reserved
  have blank : ∀ c ∈ [' '], Character.isSpace c = true :=
    List.forall_mem_singleton.mpr (by decide)
  have formed : call.WellFormed := ⟨by decide, blank, by decide, by decide⟩
  have literal : Argument.IsLiteral "\"x)\"".toList :=
    .quoted (.char (by decide) (by decide) (.char (by decide) (by decide) .nil))
  have complete : Argument.IsComplete call.argument :=
    .paren blank (List.cons_ne_nil ' ' []) (.literal literal .nil)
  have plain : (Statement.mk call.text).IsPlain := Statement.isPlain_of_isFlat (by decide +kernel)
  have bare : context.signatures call.callee = some ⟨.producing, .bare⟩ := rfl
  have noBlank : ∀ c ∈ ([] ++ [] ++ [] : Text), Character.isIndent c = true := List.forall_mem_nil _
  obtain ⟨printed, alone, made, madeAlone, same_iff, -⟩ :=
    printed_call_appends_once_iff generated formed complete plain bare noBlank .passthrough
  have same : printed = alone := same_iff.mpr ⟨rfl, rfl, rfl, by decide +kernel⟩
  exact ⟨generated, formed, complete, plain, bare, printed, made, same ▸ madeAlone⟩

/-- A blank in the parentheses of a print leaves an append of an empty text. -/
theorem printed_call_appends_twice :
    let context : ThreadingContext :=
      ⟨⟨.reserved, Accumulator.defaultName, []⟩, fun _ => some ⟨.producing, .bare⟩⟩
    let call : Call := ⟨[' '], ['g'], []⟩
    ¬∀ before behind after : Text,
      (∀ c ∈ before ++ behind ++ after, Character.isIndent c = true) →
      context.threadCalls .passthrough ((Statement.printing call before behind after).text.collectPrints
          context.names.accumulator) =
        context.threadCalls .passthrough (Statement.mk call.text).text := by
  intro context call once
  exact absurd (once [' '] [] [] (List.forall_mem_singleton.mpr rfl)) (by decide +kernel)

end ThreadingContext
end Printing
end OutputThreading
