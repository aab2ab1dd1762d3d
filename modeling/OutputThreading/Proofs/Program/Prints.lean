import OutputThreading.Proofs.Program.Delimited
import OutputThreading.Proofs.Program.Output
import OutputThreading.Proofs.Program.Relocation

/-!
# No print is left

Threading collects the prints of producing templates and of the main text, a pure template has none,
and no pass makes a print out of another statement.  So nothing is left to unwrap in the text of a
threaded program (`Config.unwrapPrints_threadText`), and the modes that thread output differ in
comments and layout only (`compile_modes_agree`).
-/

namespace OutputThreading

/-! ## Statements -/

namespace Statement

theorem print?_eq_none {statement : Statement} (other : ¬"print".toList <+: statement.interior) :
    statement.print? = none := by
  rw [print?, Text.after?_eq_none_iff.mpr other]
  rfl

/-- A statement that starts with another character is no print. -/
theorem print?_eq_none_of_cons
    {statement : Statement}
    {c : Char}
    {rest : Text}
    (interior : statement.interior = c :: rest)
    (other : c ≠ 'p') :
    statement.print? = none := by
  apply print?_eq_none
  rw [interior]
  rintro ⟨behind, equal⟩
  exact other (List.cons.inj equal).1.symm

/-- A statement on one line is a print exactly if it is the word, white space and an expression. -/
theorem isSome_print?_iff {statement : Statement} (inline : '\n' ∉ statement.interior) :
    statement.print?.isSome = true ↔
      ∃ behind, statement.interior = "print".toList ++ behind ∧ behind.leadingSpace ≠ [] := by
  constructor
  · intro isPrint
    obtain ⟨print, found⟩ := Option.isSome_iff_exists.mp isPrint
    simp only [print?, Option.bind_eq_bind, Option.bind_eq_some_iff] at found
    obtain ⟨behind, word, found⟩ := found
    rw [Option.ite_none_left_eq_some, not_or] at found
    exact ⟨behind, Text.eq_append_of_after? word, found.1.1⟩
  · rintro ⟨behind, interior, spaced⟩
    have inlineBehind : '\n' ∉ behind.trimStart := by
      intro newline
      apply inline
      rw [interior]
      exact List.mem_append_right _ (behind.trimStart_suffix.subset newline)
    rw [print?, interior, Text.after?_append]
    simp [spaced, inlineBehind]

theorem print?_collected
    {names : NameSupply}
    (generated : names.IsGenerated)
    (statement : Statement) :
    (statement.collected names.accumulator).print? = none := by
  unfold collected
  cases found : statement.print? with
  | none => exact found
  | some print =>
      obtain ⟨rest, interior⟩ := generated.exists_appending_eq_cons print.expression
      exact print?_eq_none_of_cons interior (by decide)

/-- Handing back the output makes no print. -/
theorem print?_returned
    {statement : Statement}
    (noPrint : statement.print? = none)
    (accumulator : Text) :
    (statement.returned accumulator).print? = none := by
  unfold returned
  cases statement.return? with
  | none => exact noPrint
  | some found => exact print?_eq_none_of_cons (c := 'r') rfl (by decide)

end Statement

namespace ThreadingContext

variable {context : ThreadingContext}

/-- Values in the place of calls make no print and remove none. -/
theorem isSome_print?_withValues
    {statement : Statement}
    (inline : '\n' ∉ statement.interior) :
    (context.withValues statement).print?.isSome = statement.print?.isSome := by
  have inlineValues : '\n' ∉ (context.withValues statement).interior :=
    newline_notMem_withValues inline
  rcases context.valuesFrom_eq_or_exists statement.interior [] with
    same | ⟨front, behind, c, other, text_eq, values_eq, first⟩
  · have unchanged : context.withValues statement = statement :=
      congrArg Statement.mk ((context.interior_withValues statement).trans same)
    rw [unchanged]
  · rw [← interior_withValues] at values_eq
    rw [Call.opener_eq, List.cons_append] at text_eq
    have spaced {text rest : Text} {d : Char} (solid : Character.isSpace d = false)
        (foreign : d ∉ "print".toList) (whole : text = front ++ d :: rest) :
        (∃ behind, text = "print".toList ++ behind ∧ behind.leadingSpace ≠ []) ↔
          ∃ inner, front = "print".toList ++ inner ∧ inner.leadingSpace ≠ [] := by
      constructor
      · rintro ⟨behind, equal, space⟩
        have leading : "print".toList <+: front ++ d :: rest := ⟨behind, by rw [← equal, whole]⟩
        obtain ⟨inner, front_eq⟩ := Text.prefix_of_prefix_append_cons foreign leading
        refine ⟨inner, front_eq.symm, ?_⟩
        rw [whole, ← front_eq, List.append_assoc] at equal
        rwa [← List.append_cancel_left equal, Text.leadingSpace_append_cons solid] at space
      · rintro ⟨inner, rfl, space⟩
        refine ⟨inner ++ d :: rest, by rw [whole, List.append_assoc], ?_⟩
        rwa [Text.leadingSpace_append_cons solid]
    rw [Bool.eq_iff_iff, Statement.isSome_print?_iff inlineValues,
      Statement.isSome_print?_iff inline, spaced _ _ text_eq, spaced _ _ values_eq]
    · rcases first with rfl | rfl <;> decide
    · rcases first with rfl | rfl <;> decide
    · decide
    · decide

/-- A statement of which nothing is left is no print. -/
theorem print?_eq_none_of_isSpent
    (generated : context.names.IsGenerated)
    {statement : Statement}
    (spent : context.isSpent statement = true) :
    statement.print? = none := by
  apply Statement.print?_eq_none
  rintro ⟨behind, equal⟩
  have first : statement.interior.head? = some 'p' := by
    rw [← equal]
    rfl
  rcases head?_of_isSpent generated spent first with space | letter | dollar
  · exact absurd space (by decide)
  · exact absurd letter (by decide)
  · exact absurd dollar (by decide)

/-- Threading calls makes no prints. -/
theorem ThreadsTo.print?_eq_none
    (generated : context.names.IsGenerated)
    {pieces threaded : List (Piece Statement)}
    (threads : context.ThreadsTo pieces threaded)
    (delimited : Statement.Delimited pieces)
    (noPrint : ∀ statement ∈ pieces.filterMap Piece.phrase?, statement.print? = none) :
    ∀ statement ∈ threaded.filterMap Piece.phrase?, statement.print? = none := by
  let kind? (statement : Statement) : Option Bool :=
    if statement.print?.isSome then some true else none
  have isNone {statement : Statement} : kind? statement = none ↔ statement.print? = none := by
    simp [kind?]
  have kept : (threaded.filterMap Piece.phrase?).filterMap kind? =
      (pieces.filterMap Piece.phrase?).filterMap kind? := by
    refine threads.filterMap_eq fun statement member inline => ?_
    have closes := (delimited.isPlain_of_mem member).closesOnce
    refine filterMap_threadedStatements ?_ generated closes ?_ ?_
    · intro made rest interior
      exact isNone.mpr (Statement.print?_eq_none_of_cons interior (by decide))
    · intro spent
      exact isNone.mpr (print?_eq_none_of_isSpent generated spent)
    · simp only [kind?, isSome_print?_withValues inline]
  have before : (pieces.filterMap Piece.phrase?).filterMap kind? = [] := by
    rw [List.filterMap_eq_nil_iff]
    exact fun statement member => isNone.mpr (noPrint statement member)
  rw [before, List.filterMap_eq_nil_iff] at kept
  exact fun statement member => isNone.mp (kept statement member)

end ThreadingContext

/-! ## Texts -/

/-- The statements of the text do not nest, and none of them is a print. -/
def Text.IsPrintFree (text : Text) : Prop :=
  ∃ pieces, Statement.Delimited pieces ∧ Statement.form.join pieces = text ∧
    ∀ statement ∈ pieces.filterMap Piece.phrase?, statement.print? = none

namespace Text

/-- Without prints there is nothing to unwrap. -/
theorem IsPrintFree.unwrapPrints_eq {text : Text} (free : text.IsPrintFree) :
    text.unwrapPrints = text := by
  obtain ⟨pieces, delimited, rfl, noPrint⟩ := free
  rw [unwrapPrints, Print.form_isKind.replace_join _ delimited, Form.join]
  refine List.flatMap_congr fun piece member => ?_
  cases piece with
  | char c => rfl
  | phrase statement =>
      rw [Piece.text_phrase, noPrint statement (Form.mem_filterMap_phrase?.mpr member)]
      rfl

theorem IsPrintFree.append_line
    {first rest : Text}
    (freeFirst : first.IsPrintFree)
    (freeRest : rest.IsPrintFree) :
    (first ++ '\n' :: rest).IsPrintFree := by
  obtain ⟨front, delimitedFront, rfl, noPrintFront⟩ := freeFirst
  obtain ⟨behind, delimitedBehind, rfl, noPrintBehind⟩ := freeRest
  obtain ⟨delimited, join_eq⟩ := delimitedFront.append_line delimitedBehind
  refine ⟨_, delimited, join_eq, ?_⟩
  rw [List.filterMap_append, List.filterMap_cons_none (Piece.phrase?_char _)]
  exact List.forall_mem_append.mpr ⟨noPrintFront, noPrintBehind⟩

theorem IsPrintFree.flatMap_append
    {templates : Templates}
    (free : ∀ template ∈ templates, template.text.IsPrintFree)
    {main : Text}
    (freeMain : main.IsPrintFree) :
    Text.IsPrintFree (templates.flatMap (fun template => template.text ++ ['\n']) ++ main) := by
  induction templates with
  | nil => exact freeMain
  | cons template others inductionHypothesis =>
      rw [List.forall_mem_cons] at free
      have both := free.1.append_line (inductionHypothesis free.2)
      simpa only [List.flatMap_cons, List.append_assoc, List.cons_append, List.nil_append] using both

/-- A well-delimited text in which no print is found has none. -/
theorem WellDelimited.isPrintFree
    {text : Text}
    (wellDelimited : text.WellDelimited)
    (absent : Print.form.occursIn text = false) :
    text.IsPrintFree := by
  obtain ⟨pieces, flat, rfl⟩ := wellDelimited
  have delimited := Statement.delimited_of_isFlatPiece flat
  refine ⟨pieces, delimited, rfl, ?_⟩
  rw [Form.occursIn, Bool.not_eq_false', List.isEmpty_iff,
    Print.form_isKind.phrases_join delimited] at absent
  exact List.filterMap_eq_nil_iff.mp absent

/-- No print is left in a threaded main text. -/
theorem isPrintFree_of_threadMain
    {context : ThreadingContext}
    (generated : context.names.IsGenerated)
    {unknownCalls : UnknownCalls}
    {text result : Text}
    (wellDelimited : text.WellDelimited)
    (succeeds : text.threadMain context unknownCalls = .ok result) :
    result.IsPrintFree := by
  have isName := generated.accumulator_isName
  obtain ⟨pieces, flat, rfl⟩ := wellDelimited
  have delimited := Statement.delimited_of_isFlatPiece flat
  obtain ⟨threaded, made, threads, madeDelimited, rfl, phrases⟩ :=
    exists_threadMain_eq_join isName delimited succeeds
  have noPrint := threads.print?_eq_none generated
    (delimited.map fun statement => Statement.isPlain_collected isName) (by
      rw [Form.filterMap_phrase?_map, List.forall_mem_map]
      exact fun statement _ => Statement.print?_collected generated statement)
  obtain ⟨name, accumulator_eq, _⟩ := generated.exists_accumulator_eq_cons
  obtain ⟨rest, declaring_eq⟩ := generated.exists_declaring_eq_cons
  refine ⟨made, madeDelimited, rfl, ?_⟩
  rw [phrases, List.forall_mem_cons, List.forall_mem_append, List.forall_mem_singleton]
  exact ⟨Statement.print?_eq_none_of_cons declaring_eq (by decide), noPrint,
    Statement.print?_eq_none_of_cons accumulator_eq (by decide)⟩

end Text

/-! ## Programs -/

/-- No print is left in a threaded producing template. -/
theorem Template.isPrintFree_of_thread
    {context : ThreadingContext}
    (generated : context.names.IsGenerated)
    {config : Config}
    (noBrace : '{' ∉ config.indent)
    {template result : Template}
    (wellDelimited : template.text.WellDelimited)
    (producing : template.signature.isProducing = true)
    (succeeds : template.thread context config = .ok result) :
    result.text.IsPrintFree := by
  have isName := generated.accumulator_isName
  obtain ⟨pieces, flat, text_eq⟩ := wellDelimited
  obtain ⟨prepared, delimited, prepared_eq, shape⟩ := exists_prepared_eq_join isName noBrace
    (Statement.delimited_of_isFlatPiece flat) text_eq
  have gathered : ∀ statement ∈ (Statement.gathered context.names.accumulator config.indent
      pieces).filterMap Piece.phrase?, statement.print? = none := by
    rw [Statement.gathered, Form.filterMap_phrase?_map, List.forall_mem_map]
    exact fun statement _ => Statement.print?_collected generated statement
  have noPrint : ∀ statement ∈ prepared.filterMap Piece.phrase?, statement.print? = none := by
    rcases shape with ⟨returns, _⟩ | ⟨rfl, _⟩
    · intro statement member
      rcases returns.mem_or_eq member with member | rfl
      · exact gathered statement member
      · decide
    · exact gathered
  obtain ⟨threaded, threads, threadedDelimited, threaded_eq⟩ :=
    ThreadingContext.exists_threadKnownCalls_join isName delimited
  have noPrintThreaded := threads.print?_eq_none generated delimited noPrint
  rw [eq_of_thread succeeds]
  simp only [if_pos producing]
  rw [prepared_eq, threaded_eq, Text.returnOutput_join threadedDelimited]
  refine ⟨_, threadedDelimited.map fun statement => Statement.isPlain_returned isName, rfl, ?_⟩
  rw [Form.filterMap_phrase?_map, List.forall_mem_map]
  exact fun statement member => Statement.print?_returned (noPrintThreaded statement member) _

namespace Program

/-- A pure template that was extracted from a text has no print. -/
theorem occursIn_eq_false_of_mem_pure
    {source : Text}
    {program : Program}
    (extracted : ofText source = .ok program)
    {template : Template}
    (isPure : template ∈ program.templates.pure) :
    Print.form.occursIn template.text = false := by
  obtain ⟨member, noOutput⟩ := List.mem_filter.mp isPure
  rw [Bool.eq_false_iff]
  intro prints
  have reaches : program.templates.ReachesPrint template.name :=
    ⟨template, member, prints, .refl⟩
  rw [(isProducing_iff_of_ofText extracted member).mpr reaches] at noOutput
  cases noOutput

/-- No print is left in the text of a threaded program. -/
theorem isPrintFree_of_thread
    {source : Text}
    (wellDelimited : source.WellDelimited)
    {program threaded : Program}
    (extracted : ofText source = .ok program)
    {names : NameSupply}
    (generated : names.IsGenerated)
    {config : Config}
    (noBrace : '{' ∉ config.indent)
    (succeeds : program.thread names config = .ok threaded) :
    threaded.text.IsPrintFree := by
  let context : ThreadingContext := ⟨names, program.templates.signatures⟩
  have inContext : context.names.IsGenerated := generated
  obtain ⟨templates, mainDelimited⟩ := wellDelimited_of_ofText wellDelimited extracted
  obtain ⟨rewritten, main, producing, threadsMain, text_eq⟩ :=
    exists_text_of_thread extracted succeeds
  have freePure : ∀ template ∈ program.templates.pure, template.text.IsPrintFree := by
    intro template isPure
    exact (templates template (List.mem_filter.mp isPure).1).isPrintFree
      (occursIn_eq_false_of_mem_pure extracted isPure)
  have free : ∀ template result, template ∈ program.templates.producing ∧
      template.thread context config = .ok result → result.text.IsPrintFree ∧ True := by
    rintro template result ⟨member, threads⟩
    obtain ⟨listed, isProducing⟩ := List.mem_filter.mp member
    exact ⟨Template.isPrintFree_of_thread inContext noBrace (templates template listed) isProducing
      threads, trivial⟩
  have each := (List.forall₂_and_left _ _).mpr ⟨fun _ member => member, producing⟩
  have freeRewritten := ((List.forall₂_and_left _ _).mp (each.imp free).flip).1
  rw [text_eq, List.append_assoc]
  exact Text.IsPrintFree.flatMap_append freeRewritten
    (Text.IsPrintFree.flatMap_append freePure
      (Text.isPrintFree_of_threadMain inContext mainDelimited threadsMain))

end Program

/-- A threaded text has nothing to unwrap. -/
theorem Config.unwrapPrints_threadText
    {config : Config}
    (noBrace : '{' ∉ config.indent)
    {text result : Text}
    (wellDelimited : text.WellDelimited)
    (succeeds : config.threadText text = .ok result) :
    result.unwrapPrints = result := by
  obtain ⟨names, named, succeeds⟩ := bind_eq_ok_iff.mp succeeds
  obtain ⟨program, extracted, succeeds⟩ := bind_eq_ok_iff.mp succeeds
  obtain ⟨threaded, threads, equal⟩ := bind_eq_ok_iff.mp succeeds
  rw [← pure_eq_ok_iff.mp equal]
  have free := Program.isPrintFree_of_thread wellDelimited extracted ⟨_, _, named⟩ noBrace threads
  exact free.unwrapPrints_eq

/-! ## Modes -/

/-- The mode decides which text is threaded and what is done to the result; threading itself is the
same in all modes. -/
theorem compile_eq_of_threadsOutput
    {mode : Mode}
    (threads : mode.threadsOutput = true)
    (config : Config)
    (text : Text) :
    compile { config with mode } text =
      (config.threadText (mode.normalize text)).map mode.finish :=
  compile_eq_map_finish threads text

/-- The modes that thread output leave the same program: the one for running is the one for reading,
and the compact one differs from these in comments and layout only. -/
theorem compile_modes_agree
    (config : Config)
    (text : Text)
    (delimited : text.wrapLines.WellDelimited)
    (delimitedErased : text.eraseComments.wrapLines.WellDelimited)
    (blank : config.indent.isBlank = true) :
    compile { config with mode := .runtime } text =
        compile { config with mode := .conceptual } text ∧
      compile { config with mode := .product } text =
        (compile { config with mode := .conceptual } text.eraseComments).map Text.compact := by
  have noBrace : '{' ∉ config.indent := Text.notMem_of_isBlank blank (by decide)
  rw [compile_eq_of_threadsOutput rfl, compile_eq_of_threadsOutput rfl,
    compile_eq_of_threadsOutput rfl, compile_eq_of_threadsOutput rfl]
  constructor
  · change Except.map _ (config.threadText text.wrapLines) =
      Except.map _ (config.threadText text.wrapLines)
    cases threaded : config.threadText text.wrapLines with
    | error error => rfl
    | ok result =>
        exact congrArg Except.ok (Config.unwrapPrints_threadText noBrace delimited threaded)
  · change Except.map _ (config.threadText text.eraseComments.wrapLines) =
      Except.map _ (Except.map _ (config.threadText text.eraseComments.wrapLines))
    cases threaded : config.threadText text.eraseComments.wrapLines with
    | error error => rfl
    | ok result =>
        have unwrapped := Config.unwrapPrints_threadText noBrace delimitedErased threaded
        exact congrArg (Except.ok ∘ Text.compact) unwrapped

/-- A template prints what a call hands back, the main text prints as well, and a print in a comment
is none. -/
theorem compile_modes_agree_printing :
    let text : Text :=
      "/*print 0*/\ndefine \"f\"\nprint (execTemplate \"g\")\nreturn 1\nend\nprint 2".toList
    let config : Config := { naming := .fresh }
    text.wrapLines.WellDelimited ∧ text.eraseComments.wrapLines.WellDelimited ∧
      (compile { config with mode := .runtime } text).toOption.isSome = true ∧
      compile { config with mode := .runtime } text =
        compile { config with mode := .conceptual } text ∧
      compile { config with mode := .product } text =
        (compile { config with mode := .conceptual } text.eraseComments).map Text.compact := by
  intro text config
  have delimited : text.wrapLines.WellDelimited :=
    ⟨Statement.form.split text.wrapLines, by decide +kernel, Statement.form.join_split _⟩
  have delimitedErased : text.eraseComments.wrapLines.WellDelimited :=
    ⟨Statement.form.split text.eraseComments.wrapLines, by decide +kernel,
      Statement.form.join_split _⟩
  exact ⟨delimited, delimitedErased, by decide +kernel,
    compile_modes_agree config text delimited delimitedErased (by decide)⟩

end OutputThreading
