import OutputThreading.Program.Threading
import OutputThreading.Proofs.Template.Blocks

/-!
# Threading keeps the blocks of a program

The main text gets a declaration in front and a statement at the end that emits its output, neither of
which is a marker.  So threading keeps the blocks of a whole program.
-/

namespace OutputThreading

/-! ## The main text -/

namespace Statement

/-- Pieces may follow a text whose last line was ended. -/
theorem exists_join_eq_endLine_append
    {pieces behind : List (Piece Statement)}
    (delimited : Delimited pieces)
    (delimitedBehind : Delimited behind) :
    ∃ made, Delimited made ∧ form.join made = (form.join pieces).endLine ++ form.join behind ∧
      made.filterMap Piece.phrase? =
        pieces.filterMap Piece.phrase? ++ behind.filterMap Piece.phrase? := by
  unfold Text.endLine
  split
  next ended =>
    refine ⟨pieces ++ behind, ?_, Form.join_append form pieces behind, List.filterMap_append⟩
    rw [Bool.or_eq_true, List.isEmpty_iff, decide_eq_true_eq] at ended
    rcases ended with empty | newline
    · rw [form.join_eq_nil_iff] at empty
      rw [empty]
      exact delimitedBehind
    · obtain ⟨front, equal⟩ := List.getLast?_eq_some_iff.mp newline
      obtain ⟨before, pieces_eq, _⟩ := exists_eq_append_map_char equal (by decide)
      rw [pieces_eq] at delimited ⊢
      rw [List.append_assoc]
      exact delimited.replace_end (.char (by simp) delimitedBehind) (by simp)
  next =>
    refine ⟨pieces ++ .char '\n' :: behind, ?_, by simp, ?_⟩
    · have whole : Delimited (pieces ++ []) := by rwa [List.append_nil]
      exact whole.replace_end (.char (by simp) delimitedBehind) (by simp)
    · rw [List.filterMap_append, List.filterMap_cons_none (Piece.phrase?_char _)]

end Statement

/-- A threaded main text starts with the declaration of the accumulator and ends with the statement
that emits it. -/
theorem Text.exists_threadMain_eq_join
    {context : ThreadingContext}
    (isName : context.names.accumulator.IsName)
    {unknownCalls : UnknownCalls}
    {pieces : List (Piece Statement)}
    (delimited : Statement.Delimited pieces)
    {result : Text}
    (succeeds : (Statement.form.join pieces).threadMain context unknownCalls = .ok result) :
    ∃ threaded made,
      context.ThreadsTo (pieces.map (Piece.map (Statement.collected context.names.accumulator)))
        threaded ∧
      Statement.Delimited made ∧ result = Statement.form.join made ∧
      made.filterMap Piece.phrase? =
        Accumulator.declaring context.names.accumulator ::
          (threaded.filterMap Piece.phrase? ++ [⟨context.names.accumulator⟩]) := by
  obtain ⟨threadedText, found, equal⟩ := bind_eq_ok_iff.mp succeeds
  rw [ThreadingContext.eq_threadKnownCalls_of_threadCalls found] at equal
  have collected := delimited.map fun statement => Statement.isPlain_collected isName
  obtain ⟨threaded, threads, threadedDelimited, threaded_eq⟩ :=
    ThreadingContext.exists_threadKnownCalls_join isName collected
  have emitted : Statement.Delimited
      [.phrase ⟨context.names.accumulator⟩, .char '\n'] :=
    .phrase (Statement.isPlain_of_isFlat isName.isFlat) (.char (by simp) .nil)
  obtain ⟨ended, endedDelimited, ended_eq, phrases⟩ :=
    Statement.exists_join_eq_endLine_append threadedDelimited emitted
  refine ⟨threaded,
    .phrase (Accumulator.declaring context.names.accumulator) :: .char '\n' :: ended, threads,
    .phrase (Statement.isPlain_of_isFlat (Accumulator.isFlat_declaring isName))
      (.char (by simp) endedDelimited), ?_, ?_⟩
  · rw [← pure_eq_ok_iff.mp equal, Text.collectPrints_join delimited, threaded_eq]
    simp only [Form.join_cons, ended_eq, Piece.text_phrase, Piece.text_char, Form.join_nil,
      List.append_nil, List.append_assoc]
    rfl
  · rw [List.filterMap_cons_some (Piece.phrase?_phrase _),
      List.filterMap_cons_none (Piece.phrase?_char _), phrases]
    rfl

/-- Threading a main text keeps its markers. -/
theorem Text.markers_of_threadMain
    {context : ThreadingContext}
    (generated : context.names.IsGenerated)
    {unknownCalls : UnknownCalls}
    {text result : Text}
    (wellDelimited : text.WellDelimited)
    (apart : text.CallsStandApart)
    (succeeds : text.threadMain context unknownCalls = .ok result) :
    Marker.form.phrases result = Marker.form.phrases text := by
  have isName := generated.accumulator_isName
  obtain ⟨pieces, flat, rfl⟩ := wellDelimited
  have delimited := Statement.delimited_of_isFlatPiece flat
  have collected := delimited.map fun statement => Statement.isPlain_collected isName
  obtain ⟨threaded, made, threads, madeDelimited, result_eq, phrases⟩ :=
    exists_threadMain_eq_join isName delimited succeeds
  have markers : (threaded.filterMap Piece.phrase?).filterMap Statement.marker? =
      (pieces.filterMap Piece.phrase?).filterMap Statement.marker? := by
    have standApart : ∀ statement ∈ (pieces.map (Piece.map (Statement.collected
        context.names.accumulator))).filterMap Piece.phrase?,
        statement.interior.KeywordStandsApart := by
      rw [Form.filterMap_phrase?_map]
      intro statement member
      obtain ⟨source, isSource, rfl⟩ := List.mem_map.mp member
      apply Statement.collected_apart generated
      exact Statement.keywordStandsApart_of_mem apart source isSource
    rw [threads.markers_eq generated collected standApart,
      Form.filterMap_phrase?_map_of_kept (Statement.marker?_collected generated)]
  obtain ⟨name, accumulator_eq, _⟩ := generated.exists_accumulator_eq_cons
  obtain ⟨rest, declaring_eq⟩ := generated.exists_declaring_eq_cons
  have noEmit : (Statement.mk context.names.accumulator).marker? = none :=
    Statement.marker?_eq_none_of_dollar accumulator_eq
  have noDeclaration := Statement.marker?_eq_none_of_dollar declaring_eq
  rw [result_eq, Marker.phrases_join madeDelimited, Marker.phrases_join delimited, ← markers,
    phrases]
  simp only [List.filterMap_cons, noDeclaration, List.filterMap_append, noEmit,
    List.filterMap_nil, List.append_nil]

/-! ## Block structure -/

namespace ThreadingContext

/-- Threading keeps the block structure of a main text and of a template, and keeps a template one
block exactly if its first statement calls no template that produces output. -/
theorem threading_keeps_blocks
    (context : ThreadingContext)
    (generated : context.names.IsGenerated)
    (text : Text)
    (wellDelimited : text.WellDelimited)
    (apart : text.CallsStandApart)
    (config : Config)
    (noBrace : '{' ∉ config.indent) :
    (∀ result, text.threadMain context config.unknownCalls = .ok result →
      Marker.form.phrases result = Marker.form.phrases text) ∧
    ∀ template result : Template, template.text = text →
      template.thread context config = .ok result →
        Marker.form.phrases result.text = Marker.form.phrases text ∧
        (text.IsBlock →
          (result.text.IsBlock ↔
            ∀ first ∈ (Statement.form.phrases text).head?,
              ∀ callee ∈ first.callees, context.threads callee = false)) := by
  refine ⟨fun result => Text.markers_of_threadMain generated wellDelimited apart, ?_⟩
  rintro template result rfl succeeds
  refine ⟨?_, Template.isBlock_iff_of_thread generated noBrace wellDelimited apart succeeds⟩
  obtain ⟨pieces, flat, text_eq⟩ := wellDelimited
  have delimited := Statement.delimited_of_isFlatPiece flat
  obtain ⟨made, madeDelimited, result_eq, markers, _⟩ :=
    Template.exists_thread_keeps_markers generated noBrace delimited text_eq apart succeeds
  rw [result_eq, ← text_eq, Marker.phrases_join madeDelimited, Marker.phrases_join delimited, markers]

/-- A condition and a print that call templates with output, inside of a template. -/
theorem threading_keeps_blocks_nested :
    let context : ThreadingContext :=
      ⟨⟨.reserved, Accumulator.defaultName, []⟩, fun name =>
        if name = "ask".toList then some ⟨.producing, .valued⟩
        else if name = "say".toList then some ⟨.producing, .bare⟩ else none⟩
    let text : Text :=
      (Statement.mk "define \"f\"".toList).text ++ ['\n'] ++
        (Statement.mk "if execTemplate \"ask\" $x".toList).text ++
          (Statement.mk "print (execTemplate \"say\")".toList).text ++
            Marker.closer ++ ['\n'] ++ Marker.closer
    let template : Template := ⟨"f".toList, text, 1, ⟨.producing, .bare⟩⟩
    let config : Config := {}
    context.names.IsGenerated ∧ text.WellDelimited ∧ text.CallsStandApart ∧
      '{' ∉ config.indent ∧ text.IsBlock ∧
      ∃ main result, text.threadMain context config.unknownCalls = .ok main ∧
        Marker.form.phrases main = [.opens .define, .opens .if, .closes, .closes] ∧
        template.thread context config = .ok result ∧
        Marker.form.phrases result.text = [.opens .define, .opens .if, .closes, .closes] ∧
        result.text.IsBlock := by
  intro context text template config
  have generated : context.names.IsGenerated := NameSupply.isGenerated_reserved
  have wellDelimited : text.WellDelimited :=
    ⟨Statement.form.split text, by decide +kernel, Statement.form.join_split text⟩
  have apart : text.CallsStandApart := by decide +kernel
  have noBrace : '{' ∉ config.indent := by decide
  have whole : text.IsBlock := by decide +kernel
  have markers : Marker.form.phrases text = [.opens .define, .opens .if, .closes, .closes] := by
    decide +kernel
  have unthreaded : ∀ first ∈ (Statement.form.phrases text).head?,
      ∀ callee ∈ first.callees, context.threads callee = false := by
    decide +kernel
  obtain ⟨mainKeeps, templateKeeps⟩ :=
    threading_keeps_blocks context generated text wellDelimited apart config noBrace
  obtain ⟨kept, block⟩ := templateKeeps template _ rfl rfl
  exact ⟨generated, wellDelimited, apart, noBrace, whole, _, _, rfl, (mainKeeps _ rfl).trans markers,
    rfl, kept.trans markers, (block whole).mpr unthreaded⟩

/-- The output of a call in the opener of a block goes in front of the block. -/
theorem block_lost_to_call_in_opener :
    let context : ThreadingContext :=
      ⟨⟨.reserved, Accumulator.defaultName, []⟩, fun name =>
        if name = "g".toList then some ⟨.producing, .bare⟩ else none⟩
    let text : Text := (Statement.mk "if execTemplate \"g\"".toList).text ++ Marker.closer
    let template : Template := ⟨"f".toList, text, 1, ⟨.pure, .bare⟩⟩
    context.names.IsGenerated ∧ text.WellDelimited ∧ text.CallsStandApart ∧ text.IsBlock ∧
      ∃ result, template.thread context {} = .ok result ∧ ¬result.text.IsBlock := by
  intro context text template
  refine ⟨NameSupply.isGenerated_reserved,
    ⟨Statement.form.split text, by decide +kernel, Statement.form.join_split text⟩,
    by decide +kernel, by decide +kernel, _, rfl, by decide +kernel⟩

end ThreadingContext
end OutputThreading
