import OutputThreading.Proofs.Call.Statements
import OutputThreading.Proofs.Print

/-!
# The output of a text

The output of a text is what its statements hand to the accumulator: the output of the calls of a
statement from left to right, then what the statement prints, with values in the place of the calls.
Collecting the prints and threading the calls gives a text that appends exactly this output, in this
order (`ThreadingContext.appends_threadCalls_collectPrints`).
-/

namespace OutputThreading

/-! ## Numbering calls -/

namespace Call

/-- How many of the pieces are calls of the template. -/
def countOf (callee : Text) (pieces : List (Piece Call)) : Nat :=
  pieces.countP fun piece => piece.phrase?.any fun call => call.callee = callee

/-- The pieces of a statement, every call with the number of calls of the same template in front of
it. -/
def numbered (pieces : List (Piece Call)) : List (Piece (Call × Nat)) :=
  pieces.mapIdx fun index piece =>
    piece.map fun call => (call, countOf call.callee (pieces.take index))

theorem number_eq_mapIdx (earlier : List Text) (pieces : List (Piece Call)) :
    number earlier pieces = pieces.mapIdx fun index piece =>
      piece.map fun call =>
        (call, earlier.count call.callee + countOf call.callee (pieces.take index)) := by
  induction pieces generalizing earlier with
  | nil => rfl
  | cons piece pieces inductionHypothesis =>
      rw [List.mapIdx_cons]
      cases piece with
      | char c =>
          rw [number, inductionHypothesis]
          simp [Piece.map, countOf]
      | phrase first =>
          rw [number, inductionHypothesis]
          simp only [Piece.map, countOf, List.take_zero, List.countP_nil, Nat.add_zero,
            List.take_succ_cons, List.cons.injEq, true_and]
          congr 1
          funext index piece
          cases piece with
          | char c => rfl
          | phrase call =>
              simp only [List.count_cons, List.countP_cons, Piece.phrase?_phrase, Option.any_some,
                beq_iff_eq, decide_eq_true_eq, Piece.phrase.injEq, Prod.mk.injEq, true_and]
              omega

theorem number_nil_eq_numbered (pieces : List (Piece Call)) :
    number [] pieces = numbered pieces := by
  rw [number_eq_mapIdx]
  simp [numbered]

theorem number_map_char_append (earlier : List Text) (text : Text) (pieces : List (Piece Call)) :
    number earlier (text.map .char ++ pieces) = text.map .char ++ number earlier pieces := by
  induction text with
  | nil => rfl
  | cons c text inductionHypothesis =>
      rw [List.map_cons, List.cons_append, number, inductionHypothesis]
      rfl

end Call

/-! ## What a statement hands on -/

namespace ThreadingContext

variable (context : ThreadingContext)

/-- The output of a call that has `earlier` calls of the same template in front of it. -/
def callOutput? (call : Call) (earlier : Nat) : Option Text :=
  match context.signatures call.callee with
  | some ⟨.producing, .bare⟩ =>
      some ("(execTemplate \"".toList ++ call.callee ++ ['"'] ++ call.argument ++ [')'])
  | some ⟨.producing, .valued⟩ =>
      some (Accumulator.project (context.names.temporary call.callee earlier) 0)
  | _ => none

/-- The expression that takes the place of a call. -/
def callValue (call : Call) (earlier : Nat) : Text :=
  match context.signatures call.callee with
  | some ⟨.producing, .bare⟩ => emptyValue
  | some ⟨.producing, .valued⟩ =>
      Accumulator.project (context.names.temporary call.callee earlier) 1
  | _ => call.text

/-- The output of the calls of an expression, from left to right. -/
def callOutputs (expression : Text) : List Text :=
  ((Call.numbered (Call.form.split expression)).filterMap Piece.phrase?).filterMap
    fun (call, earlier) => context.callOutput? call earlier

/-- The expression with values in the place of its calls. -/
def filled (expression : Text) : Text :=
  (Call.numbered (Call.form.split expression)).flatMap <|
    Piece.text fun (call, earlier) => context.callValue call earlier

/-- The expression is nothing but a call in parentheses whose result is all output. -/
def isLoneOutput (expression : Text) : Bool :=
  match Call.form.split expression with
  | [.char '(', .phrase call, .char ')'] =>
      context.signatures call.callee = some ⟨.producing, .bare⟩
  | _ => false

/-- What a statement prints besides the output of its calls. -/
def printed? (statement : Statement) : Option Text := do
  let print ← statement.print?
  if context.isLoneOutput print.expression then none else some (context.filled print.expression)

/-- The output of a statement: that of its calls, then what it prints. -/
def outputs (statement : Statement) : List Text :=
  context.callOutputs statement.interior ++ (context.printed? statement).toList

end ThreadingContext

/-- What a statement appends to the accumulator. -/
def Statement.appended? (accumulator : Text) (statement : Statement) : Option Text :=
  statement.interior.after? (Accumulator.appendHead accumulator)

/-- What the statements of a text append to the accumulator, from left to right. -/
def Text.appends (text accumulator : Text) : List Text :=
  (Statement.form.phrases text).filterMap (Statement.appended? accumulator)

/-! ## The output of calls -/

theorem Statement.appended?_appending (accumulator expression : Text) :
    (Accumulator.appending accumulator expression).appended? accumulator = some expression := by
  simp [appended?, Accumulator.appending]

namespace ThreadingContext

variable {context : ThreadingContext}

/-- Binding the result of a call appends nothing, even if the variable were the accumulator. -/
theorem appended?_binding
    {accumulator temporary : Text}
    (isName : accumulator.IsName)
    (temporaryIsName : temporary.IsName)
    (call : Call) :
    (binding temporary call).appended? accumulator = none := by
  have space : Character.isNamePart ' ' = false := Character.isNamePart_eq_false_of_isSpace rfl
  rw [Statement.appended?, Text.after?_eq_none_iff]
  rintro ⟨rest, equal⟩
  rw [Accumulator.appendHead_append] at equal
  have first := Text.breakOn?_singleton_eq_some_iff.mpr ⟨equal.symm, isName.notMem space⟩
  have second : (binding temporary call).interior.breakOn? [' '] =
      some (temporary, ":= ".toList ++ call.normalized.text) :=
    Text.breakOn?_singleton_eq_some_iff.mpr ⟨by simp [binding], temporaryIsName.notMem space⟩
  rw [first] at second
  simp at second

theorem filterMap_appended?_setupOf
    (isName : context.names.accumulator.IsName)
    (call : Call)
    (earlier : Nat) :
    (context.setupOf call earlier).filterMap (Statement.appended? context.names.accumulator) =
      (context.callOutput? call earlier).toList := by
  have temporary := context.names.temporary_isName call.callee earlier
  rw [setupOf, callOutput?]
  have word : "(execTemplate \"".toList = ['('] ++ (Call.opener ++ [' '] ++ ['"']) := by
    decide
  have written : ['('] ++ call.normalized.text ++ [')'] =
      "(execTemplate \"".toList ++ call.callee ++ ['"'] ++ call.argument ++ [')'] := by
    rw [word]
    simp only [Call.text, Call.normalized, List.append_assoc]
  rcases context.signatures call.callee with _ | ⟨_ | _, _ | _⟩
  · rfl
  · simp [Statement.appended?_appending, appended?_binding isName temporary]
  · simp only [written, List.filterMap_cons, Statement.appended?_appending, List.filterMap_nil,
      Option.toList_some]
  · rfl
  · rfl

/-- The setup of a statement appends the output of its calls. -/
theorem filterMap_appended?_setupFrom
    (isName : context.names.accumulator.IsName)
    (earlier : List Text)
    (pieces : List (Piece Call)) :
    (context.setupFrom earlier pieces).filterMap
        (Statement.appended? context.names.accumulator) =
      ((Call.number earlier pieces).filterMap Piece.phrase?).filterMap
        fun (call, count) => context.callOutput? call count := by
  induction pieces generalizing earlier with
  | nil => rfl
  | cons piece pieces inductionHypothesis =>
      cases piece with
      | char c => simp [setupFrom, Call.number, List.filterMap_cons, inductionHypothesis]
      | phrase call =>
          rw [setupFrom, List.filterMap_append, filterMap_appended?_setupOf isName,
            inductionHypothesis, Call.number, List.filterMap_cons, Piece.phrase?_phrase]
          simp only [List.filterMap_cons]
          cases context.callOutput? call (earlier.count call.callee) <;> rfl

theorem filterMap_appended?_setupStatements
    (isName : context.names.accumulator.IsName)
    (statement : Statement) :
    (context.setupStatements statement).filterMap
        (Statement.appended? context.names.accumulator) =
      context.callOutputs statement.interior := by
  rw [setupStatements, filterMap_appended?_setupFrom isName, Call.number_nil_eq_numbered]
  rfl

/-! ## Values -/

theorem callValue_eq (call : Call) (earlier : Nat) :
    context.callValue call earlier =
      ((context.threadCall? call earlier).map ThreadedCall.value).getD call.text := by
  rw [callValue, threadCall?]
  rcases context.signatures call.callee with _ | ⟨_ | _, _ | _⟩ <;> rfl

theorem interior_withValues_eq_filled (statement : Statement) :
    (context.withValues statement).interior = context.filled statement.interior := by
  rw [interior_withValues, valuesFrom_eq_flatMap, Call.number_nil_eq_numbered, filled,
    List.flatMap_map]
  congr 1
  funext piece
  cases piece with
  | char c => rfl
  | phrase numberedCall => exact (callValue_eq numberedCall.1 numberedCall.2).symm

theorem filled_append
    {front expression : Text}
    (skips : Call.form.Skips front expression) :
    context.filled (front ++ expression) = front ++ context.filled expression := by
  rw [filled, filled, Call.form.split_append_of_skips skips, ← Call.number_nil_eq_numbered,
    Call.number_map_char_append, List.flatMap_append, Form.flatMap_text_map_char,
    Call.number_nil_eq_numbered]

theorem callOutputs_append
    {front expression : Text}
    (skips : Call.form.Skips front expression) :
    context.callOutputs (front ++ expression) = context.callOutputs expression := by
  rw [callOutputs, callOutputs, Call.form.split_append_of_skips skips,
    ← Call.number_nil_eq_numbered, Call.number_map_char_append, List.filterMap_append,
    Form.filterMap_phrase?_map_char, List.nil_append, Call.number_nil_eq_numbered]

/-! ## Prints of a lone call -/

theorem isLoneOutput_iff (expression : Text) :
    context.isLoneOutput expression = true ↔
      ∃ call, Call.form.split expression = [.char '(', .phrase call, .char ')'] ∧
        context.signatures call.callee = some ⟨.producing, .bare⟩ := by
  rw [isLoneOutput]
  split
  next call equal =>
    rw [decide_eq_true_eq]
    constructor
    · intro bare
      exact ⟨call, equal, bare⟩
    · rintro ⟨other, otherEqual, bare⟩
      rw [otherEqual] at equal
      cases equal
      exact bare
  next different =>
    constructor
    · intro absurd
      cases absurd
    · rintro ⟨call, equal, _⟩
      exact absurd equal (different call)

theorem setupStatements_ne_nil_of_isLoneOutput
    {statement : Statement}
    {front expression : Text}
    (skips : Call.form.Skips front expression)
    (interior : statement.interior = front ++ expression)
    (lone : context.isLoneOutput expression = true) :
    context.setupStatements statement ≠ [] := by
  obtain ⟨call, split, bare⟩ := (isLoneOutput_iff expression).mp lone
  intro none
  have pure := (context.setupStatements_eq_nil_iff statement).mp none call (by
    rw [interior, Call.form.phrases_append_of_skips skips, Form.phrases, split]
    simp [List.filterMap_cons])
  simp [threads, bare, Signature.isProducing] at pure

/-- Nothing is left of an append exactly if it appends the result of a lone call that is all
output. -/
theorem isSpent_appending
    (generated : context.names.IsGenerated)
    (expression : Text) :
    context.isSpent (Accumulator.appending context.names.accumulator expression) =
      context.isLoneOutput expression := by
  have absent := generated.notMem_accumulator (by decide : 'e'.isDigit = false) (by decide)
  have occurrences : Call.form.occurrences
      (Accumulator.appending context.names.accumulator expression).interior =
        Call.form.occurrencesFrom (Accumulator.appendHead context.names.accumulator).reverse
          (Call.form.split expression) := by
    rw [Form.occurrences, Accumulator.appending,
      Call.form.split_append_of_skips (Accumulator.skips_appendHead absent expression),
      Form.occurrencesFrom_map_char_append, List.append_nil]
  rw [Bool.eq_iff_iff, isLoneOutput_iff, isSpent, occurrences]
  split
  next occurrence only =>
    obtain ⟨front, behind, split, before, after⟩ :=
      Call.form.exists_eq_of_occurrencesFrom_eq_singleton only
    rw [List.reverse_reverse] at before
    have notAlone : standsAlone occurrence = false := by
      have notBlank : occurrence.before.isBlank = false := by
        rw [Text.isBlank, List.all_eq_false, before]
        refine ⟨'$', ?_, by decide⟩
        rw [Accumulator.appendHead_append]
        exact List.mem_append_left _ generated.dollar_mem_accumulator
      rw [standsAlone, notBlank, Bool.false_and]
    rw [notAlone, Bool.false_or, Bool.and_eq_true, isAppended, Bool.and_eq_true,
      decide_eq_true_eq, decide_eq_true_eq, decide_eq_true_eq, before, after,
      List.append_cancel_left_eq]
    constructor
    · rintro ⟨⟨rfl, rfl⟩, bare⟩
      exact ⟨occurrence.phrase, split, bare⟩
    · rintro ⟨call, equal, bare⟩
      rw [split] at equal
      rcases front with _ | ⟨c, _ | ⟨d, front⟩⟩
      · cases (List.cons.inj equal).1
      · simp only [List.map_cons, List.map_nil, List.cons_append, List.nil_append,
          List.cons.injEq, Piece.char.injEq, Piece.phrase.injEq, List.map_eq_singleton_iff]
          at equal
        obtain ⟨rfl, rfl, _, rfl, rfl⟩ := equal
        exact ⟨⟨rfl, rfl⟩, bare⟩
      · cases (List.cons.inj (List.cons.inj equal).2).1
  next several =>
    constructor
    · intro absurd
      cases absurd
    · rintro ⟨call, equal, _⟩
      rw [equal] at several
      exact absurd rfl (several _)

/-! ## The output of a statement -/

theorem filterMap_appended?_threadedStatements
    (isName : context.names.accumulator.IsName)
    (statement : Statement) :
    (context.threadedStatements statement).filterMap
        (Statement.appended? context.names.accumulator) =
      context.callOutputs statement.interior ++
        if context.setupStatements statement ≠ [] ∧ context.isSpent statement then []
        else ((context.withValues statement).appended? context.names.accumulator).toList := by
  rw [threadedStatements_eq, List.filterMap_append, filterMap_appended?_setupStatements isName]
  congr 1
  split
  · rfl
  · cases found : (context.withValues statement).appended? context.names.accumulator <;>
      simp [found]

/-- A statement that does not start with the accumulator appends nothing itself. -/
theorem appended?_withValues_eq_none
    (generated : context.names.IsGenerated)
    {statement : Statement}
    (other : ¬context.names.accumulator ++ [' '] <+: statement.interior) :
    (context.withValues statement).appended? context.names.accumulator = none := by
  rw [Statement.appended?, Text.after?_eq_none_iff, interior_withValues]
  rintro ⟨rest, equal⟩
  have leading : context.names.accumulator ++ [' '] <+:
      context.valuesFrom [] (Call.form.split statement.interior) := by
    rw [← equal, Accumulator.appendHead_append]
    exact ⟨_, List.append_assoc context.names.accumulator [' '] _⟩
  rcases context.valuesFrom_eq_or_exists statement.interior [] with
    same | ⟨front, behind, c, tail, text_eq, values_eq, first⟩
  · rw [same] at leading
    exact other leading
  · -- the value of a call cannot be part of the name
    have foreign : c ∉ context.names.accumulator ++ [' '] := by
      have isName := generated.accumulator_isName
      have quote := isName.notMem (by decide +kernel : Character.isNamePart '"' = false)
      have paren := isName.notMem (by decide +kernel : Character.isNamePart '(' = false)
      rcases first with rfl | rfl <;> simp [quote, paren]
    rw [values_eq] at leading
    have before := Text.prefix_of_prefix_append_cons foreign leading
    refine other (before.trans ?_)
    rw [text_eq]
    exact List.prefix_append front _

/-- Collecting the print of a statement and threading its calls appends its output. -/
theorem filterMap_appended?_collected
    (generated : context.names.IsGenerated)
    {statement : Statement}
    (other : ¬context.names.accumulator ++ [' '] <+: statement.interior) :
    (context.threadedStatements (statement.collected context.names.accumulator)).filterMap
        (Statement.appended? context.names.accumulator) = context.outputs statement := by
  have isName := generated.accumulator_isName
  rw [filterMap_appended?_threadedStatements isName, outputs, printed?, Statement.collected]
  cases found : statement.print? with
  | none =>
      rw [Option.elim_none, appended?_withValues_eq_none generated other]
      simp
  | some print =>
      have absent := generated.notMem_accumulator (by decide : 'e'.isDigit = false) (by decide)
      have headSkips := Accumulator.skips_appendHead absent print.expression
      obtain ⟨interior, blank⟩ := Statement.interior_of_print? found
      have wordSkips : Call.form.Skips ("print".toList ++ print.spacing) print.expression := by
        refine Call.skips_of_notMem ?_ _
        rw [List.mem_append, not_or]
        exact ⟨by decide, fun letter => absurd (blank 'e' letter) (by decide)⟩
      have kept : (context.withValues (Accumulator.appending context.names.accumulator
          print.expression)).appended? context.names.accumulator =
            some (context.filled print.expression) := by
        rw [Statement.appended?, interior_withValues_eq_filled, Accumulator.appending,
          filled_append headSkips, Text.after?_append]
      rw [Option.elim_some, kept, isSpent_appending generated, Accumulator.appending,
        callOutputs_append headSkips, interior, callOutputs_append wordSkips]
      congr 1
      by_cases lone : context.isLoneOutput print.expression = true
      · have nonempty := setupStatements_ne_nil_of_isLoneOutput headSkips rfl lone
        simp [lone, nonempty]
      · simp [lone]

/-! ## The output of a text -/

/-- Collecting prints and threading calls loses, doubles and reorders no output: the threaded text
appends the output of the statements of the text, in their order. -/
theorem appends_threadCalls_collectPrints
    (context : ThreadingContext)
    (generated : context.names.IsGenerated)
    (text : Text)
    (wellDelimited : text.WellDelimited)
    (fresh : context.names.accumulator ∉ text.variableNames) :
    ∃ threaded, context.threadCalls .passthrough
        (text.collectPrints context.names.accumulator) = .ok threaded ∧
      threaded.appends context.names.accumulator =
        (Statement.form.phrases text).flatMap context.outputs := by
  refine ⟨_, rfl, ?_⟩
  obtain ⟨pieces, flat, rfl⟩ := wellDelimited
  have isName := generated.accumulator_isName
  have delimited := Statement.delimited_of_isFlatPiece flat
  have collected := delimited.map fun statement => Statement.isPlain_collected isName
  obtain ⟨threaded, threads, threadedDelimited, equal⟩ :=
    exists_threadKnownCalls_join isName collected
  rw [Text.collectPrints_join delimited, equal, Text.appends,
    Statement.form_isKind.phrases_join threadedDelimited,
    Statement.form_isKind.phrases_join delimited, threads.filterMap_phrase?,
    Form.filterMap_phrase?_map, List.flatMap_map]
  have flatStatement (statement : Statement) (member : statement ∈ pieces.filterMap Piece.phrase?) :
      statement.interior.IsFlat :=
    flat _ (Form.mem_filterMap_phrase?.mp member)
  rw [Statement.filterMap_inline?_of_isFlat flatStatement, List.filterMap_flatMap,
    List.filterMap_flatMap]
  refine List.flatMap_congr fun statement member => ?_
  have flatCollected := Statement.isFlat_collected isName (flatStatement statement member)
  have flatMade (made : Statement) (isMade : made ∈
      context.threadedStatements (statement.collected context.names.accumulator)) :
      made.interior.IsFlat :=
    isFlat_of_mem_threadedStatements isName flatCollected isMade
  have other : ¬context.names.accumulator ++ [' '] <+: statement.interior := by
    intro leading
    have inside := Statement.form.write_infix_join (Form.mem_filterMap_phrase?.mp member)
    refine generated.not_infix_of_notMem fresh (leading.isInfix.trans (List.IsInfix.trans ?_ inside))
    exact ⟨Statement.opening, Statement.closing, rfl⟩
  rw [if_neg (flatCollected.notMem (by decide)), Statement.map_asRead_of_isFlat flatMade,
    Statement.filterMap_inline?_of_isFlat flatMade, filterMap_appended?_collected generated other]

/-- Two calls of a template that returns a value in one print, a print of a lone call that is all
output, and a call of an unknown template. -/
theorem appends_threadCalls_collectPrints_mixed :
    let context : ThreadingContext :=
      ⟨⟨.reserved, Accumulator.defaultName, []⟩, fun name =>
        if name = "ask".toList then some ⟨.producing, .valued⟩
        else if name = "say".toList then some ⟨.producing, .bare⟩ else none⟩
    let text : Text :=
      (Statement.mk "print (execTemplate \"say\" 1)".toList).text ++ ['\n'] ++
        (Statement.mk "print add (execTemplate \"ask\") (execTemplate \"ask\" $x)".toList).text ++
          (Statement.mk "$y := execTemplate \"other\"".toList).text
    context.names.IsGenerated ∧ text.WellDelimited ∧
      context.names.accumulator ∉ text.variableNames ∧
      ∃ threaded, context.threadCalls .passthrough
          (text.collectPrints context.names.accumulator) = .ok threaded ∧
        threaded.appends context.names.accumulator =
          ["(execTemplate \"say\" 1)".toList, "(index $askOutput 0)".toList,
            "(index $askOutput1 0)".toList,
            "add ((index $askOutput 1)) ((index $askOutput1 1))".toList] := by
  intro context text
  have generated : context.names.IsGenerated := NameSupply.isGenerated_reserved
  have wellDelimited : text.WellDelimited :=
    ⟨Statement.form.split text, by decide +kernel, Statement.form.join_split text⟩
  have fresh : context.names.accumulator ∉ text.variableNames := by decide +kernel
  obtain ⟨threaded, made, appends⟩ :=
    appends_threadCalls_collectPrints context generated text wellDelimited fresh
  exact ⟨generated, wellDelimited, fresh, threaded, made, appends.trans (by decide +kernel)⟩

end ThreadingContext
end OutputThreading
