import Mathlib.Data.List.Forall2
import OutputThreading.Compile
import OutputThreading.Proofs.NameSupply.Capture
import OutputThreading.Proofs.Output
import OutputThreading.Proofs.Program.Blocks
import OutputThreading.Proofs.Program.Delimited
import OutputThreading.Proofs.Program.Statements
import OutputThreading.Proofs.Return

/-!
# The output of a threaded program

A producing template and the main text append the output of their statements, a pure template only
that of its calls.  The statements that threading adds for the accumulator itself append nothing, so
that the output of a threaded program can be read off its statements (`Program.appends_of_thread`),
and that of a threaded text off the program that the text describes
(`Config.outputs_eq_of_threadText`).
-/

namespace OutputThreading

/-! ## Appends of a delimited text -/

namespace Statement

/-- What a statement on one line appends to the accumulator. -/
def emitted? (accumulator : Text) (statement : Statement) : Option Text :=
  statement.inline?.bind (appended? accumulator)

theorem filterMap_emitted?_of_isFlat
    (accumulator : Text)
    {statements : List Statement}
    (flat : ∀ statement ∈ statements, statement.interior.IsFlat) :
    statements.filterMap (emitted? accumulator) = statements.filterMap (appended? accumulator) := by
  refine List.filterMap_congr fun statement member => ?_
  rw [emitted?, inline?, if_neg ((flat statement member).notMem (by decide)), Option.bind_some]

theorem Delimited.appends_join
    {pieces : List (Piece Statement)}
    (delimited : Delimited pieces)
    (accumulator : Text) :
    (form.join pieces).appends accumulator =
      (pieces.filterMap Piece.phrase?).filterMap (emitted? accumulator) := by
  rw [Text.appends, form_isKind.phrases_join delimited, List.filterMap_filterMap]
  rfl

/-- A statement that starts with another character than the accumulator appends nothing. -/
theorem appended?_eq_none_of_cons
    {names : NameSupply}
    (generated : names.IsGenerated)
    {statement : Statement}
    {c : Char}
    {rest : Text}
    (interior : statement.interior = c :: rest)
    (other : c ≠ '$') :
    statement.appended? names.accumulator = none := by
  obtain ⟨name, accumulator_eq, _⟩ := generated.exists_accumulator_eq_cons
  rw [appended?, Accumulator.appendHead, accumulator_eq, interior]
  exact Text.after?_cons_of_ne other rest _

/-- A return appends nothing, and neither does what becomes of it. -/
theorem emitted?_returned
    {names : NameSupply}
    (generated : names.IsGenerated)
    (statement : Statement) :
    (statement.returned names.accumulator).emitted? names.accumulator =
      statement.emitted? names.accumulator := by
  have silent {other : Statement} {rest : Text} (interior : other.interior = 'r' :: rest) :
      other.emitted? names.accumulator = none := by
    rw [emitted?, Option.bind_eq_none_iff]
    intro same isInline
    rw [← Option.some.inj (Option.ite_none_left_eq_some.mp isInline).2]
    exact appended?_eq_none_of_cons generated interior (by decide)
  unfold returned
  cases found : statement.return? with
  | none => rfl
  | some source =>
      have before := silent (interior_of_return? found).1
      rw [Option.elim_some, before]
      exact silent rfl

end Statement

/-- Pieces can follow each other on lines of their own. -/
theorem Statement.Delimited.append_line
    {front behind : List (Piece Statement)}
    (delimitedFront : Delimited front)
    (delimitedBehind : Delimited behind) :
    Delimited (front ++ .char '\n' :: behind) ∧
      form.join (front ++ .char '\n' :: behind) = form.join front ++ '\n' :: form.join behind := by
  have whole : Delimited (front ++ []) := by rwa [List.append_nil]
  refine ⟨whole.replace_end (.char (by simp) delimitedBehind) (by simp), ?_⟩
  rw [Form.join_append, Form.join_cons]
  rfl

/-- Texts whose statements do not nest can follow each other on lines of their own. -/
theorem Text.Unnested.append_line
    {first rest : Text}
    (unnestedFirst : first.Unnested)
    (unnestedRest : rest.Unnested)
    (accumulator : Text) :
    (first ++ '\n' :: rest).Unnested ∧
      (first ++ '\n' :: rest).appends accumulator =
        first.appends accumulator ++ rest.appends accumulator := by
  obtain ⟨front, delimitedFront, rfl⟩ := unnestedFirst
  obtain ⟨behind, delimitedBehind, rfl⟩ := unnestedRest
  obtain ⟨delimited, join_eq⟩ := delimitedFront.append_line delimitedBehind
  refine ⟨⟨_, delimited, join_eq⟩, ?_⟩
  rw [← join_eq, delimited.appends_join, delimitedFront.appends_join, delimitedBehind.appends_join,
    List.filterMap_append, List.filterMap_cons_none (Piece.phrase?_char _), List.filterMap_append]

/-! ## Statements that the passes add -/

namespace Statement

/-- A statement to which nothing belongs can be declared without changing what is collected. -/
theorem flatMap_declared
    {β : Type}
    {f : Statement → List β}
    {accumulator : Text}
    (silent : f (Accumulator.declaring accumulator) = [])
    (indent : Text)
    (pieces : List (Piece Statement)) :
    ((declared accumulator indent pieces).filterMap Piece.phrase?).flatMap f =
      (pieces.filterMap Piece.phrase?).flatMap f := by
  let kind? (statement : Statement) : Option (List β) :=
    if f statement = [] then none else some (f statement)
  have flatten (statements : List Statement) :
      statements.flatMap f = (statements.filterMap kind?).flatten := by
    induction statements with
    | nil => rfl
    | cons statement statements inductionHypothesis =>
        rw [List.flatMap_cons, inductionHypothesis, List.filterMap_cons]
        by_cases empty : f statement = []
        · simp only [kind?, empty, if_true, List.nil_append]
        · simp only [kind?, if_neg empty, List.flatten_cons]
  have other : kind? (Accumulator.declaring accumulator) = none := if_pos silent
  rw [flatten, flatten, filterMap_declared other]

theorem ReturnsAtEnd.flatMap_eq
    {β : Type}
    {f : Statement → List β}
    (silent : f returning = [])
    {pieces result : List (Piece Statement)}
    (returns : ReturnsAtEnd pieces result) :
    (result.filterMap Piece.phrase?).flatMap f = (pieces.filterMap Piece.phrase?).flatMap f := by
  cases returns with
  | intro front margin gap spacing behind =>
      simp only [List.filterMap_append, List.filterMap_cons, Form.filterMap_phrase?_map_char,
        Piece.phrase?_phrase, List.nil_append, List.flatMap_append, List.flatMap_cons, silent]

theorem ReturnsAtEnd.mem_or_eq
    {pieces result : List (Piece Statement)}
    (returns : ReturnsAtEnd pieces result)
    {statement : Statement}
    (member : statement ∈ result.filterMap Piece.phrase?) :
    statement ∈ pieces.filterMap Piece.phrase? ∨ statement = returning := by
  cases returns with
  | intro front margin gap spacing behind =>
      by_cases isReturning : statement = returning
      · exact .inr isReturning
      · left
        simpa [isReturning, Form.filterMap_phrase?_map_char] using member

theorem isFlat_of_mem_gathered
    {accumulator : Text}
    (isName : accumulator.IsName)
    {indent : Text}
    {pieces : List (Piece Statement)}
    (flat : ∀ statement ∈ pieces.filterMap Piece.phrase?, statement.interior.IsFlat)
    {statement : Statement}
    (member : statement ∈ (gathered accumulator indent pieces).filterMap Piece.phrase?) :
    statement.interior.IsFlat := by
  rw [gathered, Form.filterMap_phrase?_map] at member
  obtain ⟨source, isSource, rfl⟩ := List.mem_map.mp member
  apply isFlat_collected isName
  rcases mem_or_eq_of_mem_declared isSource with isSource | rfl
  · exact flat source isSource
  · exact Accumulator.isFlat_declaring isName

end Statement

namespace ThreadingContext

variable {context : ThreadingContext}

/-- What the statements made of a statement append. -/
def appendsOf (context : ThreadingContext) (statement : Statement) : List Text :=
  (context.threadedStatements statement).filterMap
    (Statement.appended? context.names.accumulator)

theorem appendsOf_eq_nil
    {statement : Statement}
    (noCall : Call.form.phrases statement.interior = [])
    (silent : statement.appended? context.names.accumulator = none) :
    context.appendsOf statement = [] := by
  have none : context.setupStatements statement = [] := by
    rw [setupStatements_eq_nil_iff, noCall]
    intro call member
    cases member
  rw [appendsOf, threadedStatements_eq_singleton none, List.filterMap_cons_none silent,
    List.filterMap_nil]

theorem appendsOf_returning (generated : context.names.IsGenerated) :
    context.appendsOf Statement.returning = [] :=
  appendsOf_eq_nil (by decide +kernel)
    (Statement.appended?_eq_none_of_cons (c := 'r') generated rfl (by decide))

theorem appended?_declaring (accumulator : Text) :
    (Accumulator.declaring accumulator).appended? accumulator = none := by
  rw [Statement.appended?, Text.after?_eq_none_iff, Accumulator.appendHead, List.append_assoc,
    List.append_assoc, Accumulator.declaring, List.prefix_append_right_inj]
  rintro ⟨behind, equal⟩
  exact absurd (List.cons.inj (List.cons.inj equal).2).1 (by decide)

theorem appendsOf_collected_declaring (generated : context.names.IsGenerated) :
    context.appendsOf
      ((Accumulator.declaring context.names.accumulator).collected context.names.accumulator) =
        [] := by
  obtain ⟨rest, interior⟩ := generated.exists_declaring_eq_cons
  have noPrint : (Accumulator.declaring context.names.accumulator).print? = none := by
    rw [Statement.print?, interior]
    rfl
  have absent := generated.notMem_accumulator (by decide : 'e'.isDigit = false) (by decide)
  rw [Statement.collected, noPrint, Option.elim_none]
  apply appendsOf_eq_nil
  · apply Call.phrases_eq_nil_of_notMem
    rw [Accumulator.declaring, List.mem_append, not_or]
    exact ⟨absent, by decide⟩
  · exact appended?_declaring context.names.accumulator

/-- The output of a statement in a template with the signature. -/
def outputsIn (context : ThreadingContext) (signature : Signature) (statement : Statement) :
    List Text :=
  if signature.isProducing then context.outputs statement
  else context.callOutputs statement.interior

end ThreadingContext

/-! ## Templates -/

/-- The statements of a text leave the accumulator alone. -/
def Text.LeavesAlone (text accumulator : Text) : Prop :=
  ∀ statement ∈ Statement.form.phrases text, ¬accumulator ++ [' '] <+: statement.interior

/-- The statements of the prepared template append what those of the template hand on. -/
theorem Template.exists_prepared_appendsOf
    {context : ThreadingContext}
    (generated : context.names.IsGenerated)
    {indent : Text}
    (noBrace : '{' ∉ indent)
    {template : Template}
    (wellDelimited : template.text.WellDelimited)
    (alone : template.text.LeavesAlone context.names.accumulator) :
    ∃ prepared, Statement.Delimited prepared ∧
      template.prepared context.names.accumulator indent = Statement.form.join prepared ∧
      (∀ statement ∈ prepared.filterMap Piece.phrase?, statement.interior.IsFlat) ∧
      (prepared.filterMap Piece.phrase?).flatMap context.appendsOf =
        (Statement.form.phrases template.text).flatMap context.outputs := by
  have isName := generated.accumulator_isName
  obtain ⟨pieces, flat, text_eq⟩ := wellDelimited
  have phrases := Statement.phrases_join_of_isFlatPiece flat
  rw [text_eq] at phrases
  have flatStatement : ∀ statement ∈ pieces.filterMap Piece.phrase?, statement.interior.IsFlat :=
    fun statement member => flat _ (Form.mem_filterMap_phrase?.mp member)
  obtain ⟨prepared, delimited, equal, shape⟩ := exists_prepared_eq_join isName noBrace
    (Statement.delimited_of_isFlatPiece flat) text_eq
  have gathered : ((Statement.gathered context.names.accumulator indent pieces).filterMap
      Piece.phrase?).flatMap context.appendsOf =
        (Statement.form.phrases template.text).flatMap context.outputs := by
    rw [Statement.gathered, Form.filterMap_phrase?_map, List.flatMap_map,
      Statement.flatMap_declared (ThreadingContext.appendsOf_collected_declaring generated),
      ← phrases]
    refine List.flatMap_congr fun statement member => ?_
    exact ThreadingContext.filterMap_appended?_collected generated (alone statement member)
  refine ⟨prepared, delimited, equal, ?_⟩
  rcases shape with ⟨returns, _⟩ | ⟨rfl, _⟩
  · refine ⟨fun statement member => ?_, ?_⟩
    · rcases returns.mem_or_eq member with member | rfl
      · exact Statement.isFlat_of_mem_gathered isName flatStatement member
      · decide
    · rw [returns.flatMap_eq (ThreadingContext.appendsOf_returning generated), gathered]
  · exact ⟨fun statement => Statement.isFlat_of_mem_gathered isName flatStatement, gathered⟩

/-- Threading flat statements appends what is made of them. -/
theorem Statement.exists_threadKnownCalls_appends
    {context : ThreadingContext}
    (isName : context.names.accumulator.IsName)
    {pieces : List (Piece Statement)}
    (delimited : Delimited pieces)
    (flat : ∀ statement ∈ pieces.filterMap Piece.phrase?, statement.interior.IsFlat) :
    ∃ threaded, Delimited threaded ∧
      context.threadKnownCalls (form.join pieces) = form.join threaded ∧
      (threaded.filterMap Piece.phrase?).filterMap (emitted? context.names.accumulator) =
        (pieces.filterMap Piece.phrase?).flatMap context.appendsOf := by
  obtain ⟨threaded, threads, threadedDelimited, equal⟩ :=
    ThreadingContext.exists_threadKnownCalls_join isName delimited
  obtain ⟨phrases, flatMade⟩ := threads.filterMap_phrase?_of_isFlat isName flat
  refine ⟨threaded, threadedDelimited, equal, ?_⟩
  rw [filterMap_emitted?_of_isFlat _ flatMade, phrases, List.filterMap_flatMap]
  rfl

/-- A threaded template appends the output of its statements. -/
theorem Template.appends_of_thread
    {context : ThreadingContext}
    (generated : context.names.IsGenerated)
    {config : Config}
    (noBrace : '{' ∉ config.indent)
    {template result : Template}
    (wellDelimited : template.text.WellDelimited)
    (alone : template.text.LeavesAlone context.names.accumulator)
    (succeeds : template.thread context config = .ok result) :
    result.text.Unnested ∧ result.text.appends context.names.accumulator =
      (Statement.form.phrases template.text).flatMap (context.outputsIn template.signature) := by
  have isName := generated.accumulator_isName
  rw [eq_of_thread succeeds]
  by_cases producing : template.signature.isProducing = true
  · obtain ⟨prepared, delimited, prepared_eq, flat, appends⟩ :=
      exists_prepared_appendsOf generated noBrace wellDelimited alone
    obtain ⟨threaded, threadedDelimited, threaded_eq, emitted⟩ :=
      Statement.exists_threadKnownCalls_appends isName delimited flat
    have returned := threadedDelimited.map fun statement => Statement.isPlain_returned isName
    simp only [if_pos producing]
    rw [prepared_eq, threaded_eq, Text.returnOutput_join threadedDelimited]
    refine ⟨⟨_, returned, rfl⟩, ?_⟩
    rw [returned.appends_join,
      Form.filterMap_phrase?_map_of_kept (Statement.emitted?_returned generated), emitted, appends]
    congr 1
    funext statement
    rw [ThreadingContext.outputsIn, if_pos producing]
  · obtain ⟨pieces, flat, text_eq⟩ := wellDelimited
    have phrases := Statement.phrases_join_of_isFlatPiece flat
    rw [text_eq] at phrases
    obtain ⟨threaded, threadedDelimited, threaded_eq, emitted⟩ :=
      Statement.exists_threadKnownCalls_appends isName (Statement.delimited_of_isFlatPiece flat)
        fun statement member => flat _ (Form.mem_filterMap_phrase?.mp member)
    simp only [if_neg producing]
    rw [text_eq] at threaded_eq
    rw [threaded_eq]
    refine ⟨⟨_, threadedDelimited, rfl⟩, ?_⟩
    rw [threadedDelimited.appends_join, emitted, ← phrases]
    refine List.flatMap_congr fun statement member => ?_
    rw [ThreadingContext.outputsIn, if_neg producing, ThreadingContext.appendsOf,
      ThreadingContext.filterMap_appended?_threadedStatements isName,
      ThreadingContext.appended?_withValues_eq_none generated (alone statement member)]
    simp

/-! ## Programs -/

/-- A threaded main text appends the output of its statements. -/
theorem Text.appends_of_threadMain
    {context : ThreadingContext}
    (generated : context.names.IsGenerated)
    {unknownCalls : UnknownCalls}
    {text result : Text}
    (wellDelimited : text.WellDelimited)
    (alone : text.LeavesAlone context.names.accumulator)
    (succeeds : text.threadMain context unknownCalls = .ok result) :
    result.Unnested ∧ result.appends context.names.accumulator =
      (Statement.form.phrases text).flatMap context.outputs := by
  have isName := generated.accumulator_isName
  obtain ⟨pieces, flat, rfl⟩ := wellDelimited
  have flatStatement : ∀ statement ∈ pieces.filterMap Piece.phrase?, statement.interior.IsFlat :=
    fun statement member => flat _ (Form.mem_filterMap_phrase?.mp member)
  obtain ⟨threaded, made, threads, delimited, rfl, phrases⟩ :=
    exists_threadMain_eq_join isName (Statement.delimited_of_isFlatPiece flat) succeeds
  have flatCollected : ∀ statement ∈ (pieces.map (Piece.map (Statement.collected
      context.names.accumulator))).filterMap Piece.phrase?, statement.interior.IsFlat := by
    rw [Form.filterMap_phrase?_map]
    intro statement member
    obtain ⟨source, isSource, rfl⟩ := List.mem_map.mp member
    exact Statement.isFlat_collected isName (flatStatement source isSource)
  obtain ⟨threaded_eq, flatThreaded⟩ := threads.filterMap_phrase?_of_isFlat isName flatCollected
  have flatMade : ∀ statement ∈ made.filterMap Piece.phrase?, statement.interior.IsFlat := by
    rw [phrases, List.forall_mem_cons, List.forall_mem_append, List.forall_mem_singleton]
    exact ⟨Accumulator.isFlat_declaring isName, flatThreaded, isName.isFlat⟩
  have noEmit : (Statement.mk context.names.accumulator).appended? context.names.accumulator =
      none := by
    rw [Statement.appended?, Text.after?_eq_none_iff]
    intro leading
    have short := leading.length_le
    simp only [Accumulator.appendHead, List.length_append] at short
    have longer : 0 < " = joinStr \"\\n\" ".toList.length := by decide
    omega
  refine ⟨⟨made, delimited, rfl⟩, ?_⟩
  rw [delimited.appends_join, Statement.filterMap_emitted?_of_isFlat _ flatMade, phrases,
    List.filterMap_cons_none (ThreadingContext.appended?_declaring _),
    List.filterMap_append, List.filterMap_cons_none noEmit, List.filterMap_nil, List.append_nil,
    threaded_eq, List.filterMap_flatMap, Form.filterMap_phrase?_map, List.flatMap_map,
    Statement.phrases_join_of_isFlatPiece flat]
  refine List.flatMap_congr fun statement member => ?_
  rw [← Statement.phrases_join_of_isFlatPiece flat] at member
  exact ThreadingContext.filterMap_appended?_collected generated (alone statement member)

/-- A threaded template in the place of its source. -/
structure Template.Appends (accumulator : Text) (outputs : Template → List Text)
    (template result : Template) : Prop where
  /-- The signature is that of the source. -/
  signature_eq : result.signature = template.signature
  /-- The statements of the threaded template do not nest. -/
  unnested : result.text.Unnested
  /-- The threaded template appends the output of the source. -/
  appends_eq : result.text.appends accumulator = outputs template

theorem Templates.appends_flatMap
    {accumulator : Text}
    {outputs : Template → List Text}
    {templates results : Templates}
    (each : List.Forall₂ (Template.Appends accumulator outputs) templates results)
    {main : Text}
    (unnested : main.Unnested) :
    Text.Unnested (results.flatMap (fun result => result.text ++ ['\n']) ++ main) ∧
      Text.appends (results.flatMap (fun result => result.text ++ ['\n']) ++ main) accumulator =
        templates.flatMap outputs ++ main.appends accumulator := by
  induction each with
  | nil => exact ⟨unnested, rfl⟩
  | cons first others inductionHypothesis =>
      obtain ⟨unnestedOthers, appends⟩ := inductionHypothesis
      have both := first.unnested.append_line unnestedOthers accumulator
      rw [appends, first.appends_eq, ← List.append_assoc] at both
      simpa only [List.flatMap_cons, List.append_assoc, List.cons_append, List.nil_append] using both

/-- The output of the statements of a program: those of the templates, as they are listed in its
text, and then those of the main text. -/
def Program.outputs (program : Program) (names : NameSupply) : List Text :=
  let context : ThreadingContext := ⟨names, program.templates.signatures⟩
  (program.templates.producing ++ program.templates.pure).flatMap (fun template =>
      (Statement.form.phrases template.text).flatMap (context.outputsIn template.signature)) ++
    (Statement.form.phrases program.main).flatMap context.outputs

/-- A threaded program appends the output of its statements. -/
theorem Program.appends_of_thread
    {program threaded : Program}
    {names : NameSupply}
    (generated : names.IsGenerated)
    {config : Config}
    (noBrace : '{' ∉ config.indent)
    (templates : ∀ template ∈ program.templates,
      template.text.WellDelimited ∧ template.text.LeavesAlone names.accumulator)
    (main : program.main.WellDelimited ∧ program.main.LeavesAlone names.accumulator)
    (succeeds : program.thread names config = .ok threaded) :
    threaded.text.appends names.accumulator = program.outputs names := by
  let context : ThreadingContext := ⟨names, program.templates.signatures⟩
  have inContext : context.names.IsGenerated := generated
  obtain ⟨results, threadedTemplates, succeeds⟩ := bind_eq_ok_iff.mp succeeds
  obtain ⟨mainResult, threadedMain, equal⟩ := bind_eq_ok_iff.mp succeeds
  rw [← pure_eq_ok_iff.mp equal]
  obtain ⟨unnested, mainAppends⟩ :=
    Text.appends_of_threadMain inContext main.1 main.2 threadedMain
  have each : List.Forall₂ (Template.Appends names.accumulator fun template =>
      (Statement.form.phrases template.text).flatMap (context.outputsIn template.signature))
      program.templates results := by
    refine ((List.forall₂_and_left _ _).mpr
      ⟨templates, Templates.forall₂_of_thread threadedTemplates⟩).imp ?_
    rintro template result ⟨⟨wellDelimited, alone⟩, threads⟩
    obtain ⟨unnested, appends⟩ :=
      Template.appends_of_thread inContext noBrace wellDelimited alone threads
    exact ⟨by rw [Template.eq_of_thread threads], unnested, appends⟩
  have producing := List.rel_filter (p := fun template => template.signature.isProducing)
    (q := fun template => template.signature.isProducing)
    (fun _ _ appends => by simp only [appends.signature_eq]) each
  have pure := List.rel_filter (p := fun template => !template.signature.isProducing)
    (q := fun template => !template.signature.isProducing)
    (fun _ _ appends => by simp only [appends.signature_eq]) each
  have parts := Templates.appends_flatMap (List.rel_append producing pure) unnested
  rw [mainAppends] at parts
  exact parts.2

/-! ## Texts -/

/-- Under reserved naming the statements of the source leave the accumulator alone. -/
theorem NameSupply.leavesAlone_of_ofSource_reserved
    {text : Text}
    {names : NameSupply}
    (made : ofSource .reserved text = .ok names) :
    text.LeavesAlone Accumulator.defaultName := by
  have generated : names.IsGenerated := ⟨.reserved, text, made⟩
  have accumulator : names.accumulator = Accumulator.defaultName := by
    rw [ofSource_reserved_eq_ok made]
  have fresh : names.accumulator ∉ text.variableNames := by
    rw [Text.mem_variableNames_iff, accumulator]
    exact not_uses_of_ofSource_reserved made (.inl (by decide))
  have absent := generated.not_infix_of_notMem fresh
  rw [accumulator] at absent
  intro statement member leading
  have inside := Statement.form.write_infix_join (Form.mem_filterMap_phrase?.mp member)
  rw [Form.join_split] at inside
  apply absent
  exact leading.isInfix.trans (List.IsInfix.trans ⟨Statement.opening, Statement.closing, rfl⟩ inside)

/-- The output of the program that a text describes under reserved naming. -/
def Text.outputs (text : Text) : Except CompileError (List Text) := do
  let names ← NameSupply.ofSource .reserved text
  return (← Program.ofText text).outputs names

/-- A threaded text appends the output of the program that the text describes. -/
theorem Config.outputs_eq_of_threadText
    {config : Config}
    (reserved : config.naming = .reserved)
    (noBrace : '{' ∉ config.indent)
    {text result : Text}
    (wellDelimited : text.WellDelimited)
    (threaded : config.threadText text = .ok result) :
    text.outputs = .ok (result.appends Accumulator.defaultName) := by
  rw [threadText, reserved] at threaded
  obtain ⟨names, made, threaded⟩ := bind_eq_ok_iff.mp threaded
  obtain ⟨program, extracted, threaded⟩ := bind_eq_ok_iff.mp threaded
  obtain ⟨threadedProgram, succeeds, equal⟩ := bind_eq_ok_iff.mp threaded
  have generated : names.IsGenerated := ⟨.reserved, text, made⟩
  have accumulator : names.accumulator = Accumulator.defaultName := by
    rw [NameSupply.ofSource_reserved_eq_ok made]
  have alone := NameSupply.leavesAlone_of_ofSource_reserved made
  rw [← accumulator] at alone
  obtain ⟨templates, main⟩ := Program.wellDelimited_of_ofText wellDelimited extracted
  obtain ⟨inTemplates, inMain⟩ := Program.phrases_subset_of_ofText wellDelimited extracted
  have appends : threadedProgram.text.appends names.accumulator = program.outputs names := by
    refine Program.appends_of_thread generated noBrace ?_ ?_ succeeds
    · exact fun template member => ⟨templates template member,
        fun statement isStatement => alone statement (inTemplates template member isStatement)⟩
    · exact ⟨main, fun statement isStatement => alone statement (inMain isStatement)⟩
  rw [← pure_eq_ok_iff.mp equal, ← accumulator, appends]
  exact bind_eq_ok_iff.mpr ⟨names, made, bind_eq_ok_iff.mpr ⟨program, extracted, rfl⟩⟩

end OutputThreading
