import Mathlib.Data.List.Forall2
import OutputThreading.Proofs.Program.Extraction
import OutputThreading.Proofs.Return
import OutputThreading.Proofs.Template.Passes

/-!
# What a producing template returns

Every return of a producing template hands back the accumulator, paired with a value exactly if the
return that it was made of has one.  A template without a return gets one without a value.  A caller
that goes by the signature is therefore right about a template whose returns are all of one kind
(`Template.handsBackOutput_of_thread`).  Where they are mixed, the signature says that there is a
value, and a return without one hands back no pair.
-/

namespace OutputThreading

/-! ## The returns of each pass -/

namespace Statement

/-- A print is no return, and neither is what becomes of it. -/
theorem return?_collected
    {names : NameSupply}
    (generated : names.IsGenerated)
    (statement : Statement) :
    (statement.collected names.accumulator).return? = statement.return? := by
  unfold collected
  cases found : statement.print? with
  | none => rfl
  | some print =>
      obtain ⟨rest, interior⟩ := generated.exists_appending_eq_cons print.expression
      have before : statement.return? = none := by
        apply return?_eq_none
        rw [(interior_of_print? found).1, List.append_assoc]
        rintro ⟨rest, same⟩
        exact absurd (List.cons.inj same).1 (by decide)
      rw [before]
      exact return?_eq_none_of_dollar interior

/-- Gathering the output of a template keeps its returns. -/
theorem filterMap_return?_gathered
    {names : NameSupply}
    (generated : names.IsGenerated)
    (indent : Text)
    (pieces : List (Piece Statement)) :
    ((gathered names.accumulator indent pieces).filterMap Piece.phrase?).filterMap return? =
      (pieces.filterMap Piece.phrase?).filterMap return? := by
  obtain ⟨rest, interior⟩ := generated.exists_declaring_eq_cons
  exact filterMap_gathered (return?_eq_none_of_dollar interior) (return?_collected generated) indent
    pieces

/-- Gathering the output of a template keeps its end statements. -/
theorem ending_mem_gathered
    (accumulator indent : Text)
    {pieces : List (Piece Statement)}
    (member : ending ∈ pieces.filterMap Piece.phrase?) :
    ending ∈ (gathered accumulator indent pieces).filterMap Piece.phrase? := by
  have declared := ((sublist_declared accumulator indent pieces).filterMap Piece.phrase?).subset
    member
  have kept : ending.collected accumulator = ending := by
    have noPrint : ending.print? = none := by decide
    rw [collected, noPrint]
    rfl
  unfold gathered
  rw [Form.filterMap_phrase?_map]
  exact List.mem_map.mpr ⟨ending, declared, kept⟩

/-- A return at the end is found in front of the end statement. -/
theorem ReturnsAtEnd.returnKinds_eq
    {pieces result : List (Piece Statement)}
    (returns : ReturnsAtEnd pieces result)
    (none : (pieces.filterMap Piece.phrase?).filterMap return? = []) :
    returnKinds (result.filterMap Piece.phrase?) = [false] := by
  cases returns with
  | intro front margin gap spacing behind =>
      have returned : returning.return? = some Return.bare := by decide +kernel
      rw [returnKinds_eq_map]
      simp only [List.filterMap_append, List.filterMap_cons, Form.filterMap_phrase?_map_char,
        Piece.phrase?_phrase, List.nil_append, List.append_eq_nil_iff] at none ⊢
      rw [none.1, returned, none.2]
      rfl

end Statement

/-! ## The returns of a threaded template -/

/-- The return hands back the accumulator, paired with a value if the source of the return has
one. -/
def Return.HandsBack (accumulator : Text) (source result : Return) : Prop :=
  (source.isValued = true ∧
      ∃ value, value ≠ [] ∧ result = ⟨[' '], Accumulator.pair accumulator value, []⟩) ∨
    (source.isValued = false ∧ result = ⟨[' '], accumulator, []⟩)

/-- Returns with values where others have values hand back pairs there. -/
theorem Return.forall₂_handsBack
    (accumulator : Text)
    {sources returns : List Return}
    (kinds : returns.map isValued = sources.map isValued) :
    List.Forall₂ (HandsBack accumulator) sources
      (returns.map fun found => ⟨[' '], found.handedBack accumulator, []⟩) := by
  induction sources generalizing returns with
  | nil =>
      rw [List.map_nil, List.map_eq_nil_iff] at kinds
      rw [kinds]
      exact .nil
  | cons source sources inductionHypothesis =>
      obtain ⟨found, others, rfl, kind, kinds⟩ := List.map_eq_cons_iff.mp kinds
      refine .cons ?_ (inductionHypothesis kinds)
      unfold HandsBack
      rw [← kind]
      by_cases valued : found.isValued = true
      · left
        refine ⟨valued, found.expression, ?_, by simp only [handedBack, if_pos valued]⟩
        intro empty
        rw [isValued, empty] at valued
        cases valued
      · right
        exact ⟨Bool.eq_false_iff.mpr valued, by simp only [handedBack, if_neg valued]⟩

/-- The returns of a template: those in its text, or one without a value at its end. -/
def Template.returns (template : Template) : List Return :=
  if Return.form.phrases template.text = [] then [Return.bare]
  else Return.form.phrases template.text

theorem Statement.ending_mem_of_closer_suffix
    {pieces : List (Piece Statement)}
    (delimited : Statement.Delimited pieces)
    (suffix : Marker.closer <:+ form.join pieces) :
    ending ∈ pieces.filterMap Piece.phrase? := by
  rcases breakOnLast?_join delimited with ⟨notFound, _⟩ | ⟨before, behind, rfl, _⟩
  · obtain ⟨front, equal⟩ := suffix
    have last : Marker.closer.breakOnLast? Marker.closer = some ([], []) := by decide
    rw [← equal, Text.breakOnLast?_append_of_eq_some last] at notFound
    cases notFound
  · simp [List.filterMap_append]

/-- The returns of a prepared template are those of the template. -/
theorem Template.exists_prepared_returnKinds
    {names : NameSupply}
    (generated : names.IsGenerated)
    {indent : Text}
    (noBrace : '{' ∉ indent)
    {template : Template}
    (definition : template.IsDefinition)
    (unnested : template.text.Unnested) :
    ∃ prepared, Statement.Delimited prepared ∧
      template.prepared names.accumulator indent = Statement.form.join prepared ∧
      Statement.returnKinds (prepared.filterMap Piece.phrase?) =
        template.returns.map Return.isValued := by
  obtain ⟨pieces, delimited, text_eq⟩ := unnested
  obtain ⟨prepared, preparedDelimited, equal, shape⟩ :=
    exists_prepared_eq_join generated.accumulator_isName noBrace delimited text_eq
  refine ⟨prepared, preparedDelimited, equal, ?_⟩
  have source : Return.form.phrases template.text =
      (pieces.filterMap Piece.phrase?).filterMap Statement.return? := by
    rw [← text_eq, Return.form_isKind.phrases_join delimited]
  have ends : Statement.ending ∈
      (Statement.gathered names.accumulator indent pieces).filterMap Piece.phrase? := by
    apply Statement.ending_mem_gathered
    apply Statement.ending_mem_of_closer_suffix delimited
    rw [text_eq]
    exact definition.closer_suffix
  unfold Template.returns
  rw [Statement.filterMap_return?_gathered generated, ← source] at shape
  rcases shape with ⟨returns, none⟩ | ⟨rfl, some | absent⟩
  · rw [if_pos none, returns.returnKinds_eq]
    · rfl
    · rw [Statement.filterMap_return?_gathered generated, ← source, none]
  · rw [if_neg some, Statement.returnKinds_eq_map,
      Statement.filterMap_return?_gathered generated, ← source]
  · exact absurd ends absent

/-- Every return of a threaded template hands back the output. -/
theorem Template.forall₂_handsBack_of_thread
    {context : ThreadingContext}
    (generated : context.names.IsGenerated)
    {config : Config}
    (noBrace : '{' ∉ config.indent)
    {template result : Template}
    (definition : template.IsDefinition)
    (unnested : template.text.Unnested)
    (producing : template.signature.isProducing = true)
    (succeeds : template.thread context config = .ok result) :
    List.Forall₂ (Return.HandsBack context.names.accumulator) template.returns
      (Return.form.phrases result.text) := by
  have isName := generated.accumulator_isName
  have nonempty : context.names.accumulator ≠ [] :=
    List.ne_nil_of_mem generated.dollar_mem_accumulator
  obtain ⟨prepared, delimited, prepared_eq, kinds⟩ :=
    exists_prepared_returnKinds generated noBrace definition unnested
  obtain ⟨threaded, threads, threadedDelimited, threaded_eq⟩ :=
    ThreadingContext.exists_threadKnownCalls_join isName delimited
  have text : result.text = Statement.form.join
      (threaded.map (Piece.map (Statement.returned context.names.accumulator))) := by
    rw [eq_of_thread succeeds]
    simp only [producing, if_true]
    rw [prepared_eq, threaded_eq, Text.returnOutput_join threadedDelimited]
  have returned := threadedDelimited.map fun statement => Statement.isPlain_returned isName
  have phrases : Return.form.phrases result.text =
      ((threaded.filterMap Piece.phrase?).filterMap Statement.return?).map
        fun found => ⟨[' '], found.handedBack context.names.accumulator, []⟩ := by
    rw [text, Return.form_isKind.phrases_join returned, Form.filterMap_phrase?_map,
      List.filterMap_map, List.map_filterMap]
    congr 1
    funext statement
    exact Statement.return?_returned isName nonempty statement
  rw [phrases]
  apply Return.forall₂_handsBack
  rw [← Statement.returnKinds_eq_map, threads.returnKinds_eq generated delimited, kinds]

/-! ## Callers and templates agree -/

/-- The returns of a template hand back its output, which a template that returns no value does in
one way and a template that always returns a value in another. -/
structure Template.HandsBackOutput (accumulator : Text) (template result : Template) : Prop where
  /-- Each return hands back the accumulator, paired with a value if it had one. -/
  returns :
    List.Forall₂ (Return.HandsBack accumulator) template.returns (Return.form.phrases result.text)
  /-- If callers expect no value, all returns hand back the accumulator. -/
  bare :
    template.signature.returns = .bare →
      ∀ found ∈ Return.form.phrases result.text, found = ⟨[' '], accumulator, []⟩
  /-- If callers expect a value and no return leaves it out, all returns hand back pairs. -/
  valued :
    template.signature.returns = .valued →
      (∀ source ∈ Return.form.phrases template.text, source.isValued = true) →
        ∀ found ∈ Return.form.phrases result.text,
          ∃ value, value ≠ [] ∧ found = ⟨[' '], Accumulator.pair accumulator value, []⟩

theorem Return.exists_source_of_mem
    {accumulator : Text}
    {sources results : List Return}
    (handsBack : List.Forall₂ (HandsBack accumulator) sources results)
    {found : Return}
    (member : found ∈ results) :
    ∃ source ∈ sources, HandsBack accumulator source found := by
  induction handsBack with
  | nil => cases member
  | @cons source result sources results first others inductionHypothesis =>
      rcases List.mem_cons.mp member with rfl | member
      · exact ⟨source, List.mem_cons_self, first⟩
      · obtain ⟨other, isSource, hands⟩ := inductionHypothesis member
        exact ⟨other, List.mem_cons_of_mem source isSource, hands⟩

theorem Template.isValued_of_mem_returns
    {template : Template}
    (definition : template.IsDefinition)
    (bare : template.signature.returns = .bare) :
    ∀ source ∈ template.returns, source.isValued = false := by
  rw [definition.returns_eq] at bare
  unfold Signature.ofText at bare
  intro source member
  unfold Template.returns at member
  split at member
  · rw [List.mem_singleton.mp member]
    rfl
  · by_contra valued
    rw [Bool.not_eq_false] at valued
    rw [if_pos (List.any_eq_true.mpr ⟨source, member, valued⟩)] at bare
    cases bare

theorem Template.returns_eq_phrases
    {template : Template}
    (definition : template.IsDefinition)
    (valued : template.signature.returns = .valued) :
    template.returns = Return.form.phrases template.text := by
  rw [definition.returns_eq] at valued
  unfold Signature.ofText at valued
  unfold Template.returns
  rw [if_neg]
  intro none
  rw [none] at valued
  cases valued

/-- A threaded definition hands back its output. -/
theorem Template.handsBackOutput_of_thread
    {context : ThreadingContext}
    (generated : context.names.IsGenerated)
    {config : Config}
    (noBrace : '{' ∉ config.indent)
    {template result : Template}
    (definition : template.IsDefinition)
    (unnested : template.text.Unnested)
    (producing : template.signature.isProducing = true)
    (succeeds : template.thread context config = .ok result) :
    template.HandsBackOutput context.names.accumulator result := by
  have returns :=
    forall₂_handsBack_of_thread generated noBrace definition unnested producing succeeds
  refine ⟨returns, fun bare found member => ?_, fun valued always found member => ?_⟩
  · obtain ⟨source, isSource, ⟨isValued, _⟩ | ⟨_, equal⟩⟩ :=
      Return.exists_source_of_mem returns member
    · rw [isValued_of_mem_returns definition bare source isSource] at isValued
      cases isValued
    · exact equal
  · obtain ⟨source, isSource, ⟨_, equal⟩ | ⟨isBare, _⟩⟩ :=
      Return.exists_source_of_mem returns member
    · exact equal
    · rw [returns_eq_phrases definition valued] at isSource
      rw [always source isSource] at isBare
      cases isBare

/-- Every producing template of an extracted program, if its statements do not nest, hands back its
output as callers expect it, up to bare returns next to returns with values. -/
theorem Program.forall₂_handsBackOutput
    (text : Text)
    {program : Program}
    (extracted : ofText text = .ok program)
    (names : NameSupply)
    (generated : names.IsGenerated)
    (config : Config)
    (noBrace : '{' ∉ config.indent)
    {threaded : Templates}
    (succeeds : program.templates.thread ⟨names, program.templates.signatures⟩ config =
      .ok threaded) :
    List.Forall₂
      (fun template result =>
        template.signature.isProducing = true → template.text.Unnested →
          template.HandsBackOutput names.accumulator result)
      program.templates threaded := by
  have definitions := isDefinition_of_mem_ofText extracted
  have each := (List.forall₂_and_left _ _).mpr
    ⟨definitions, Templates.forall₂_of_thread succeeds⟩
  refine each.imp ?_
  rintro template result ⟨definition, threads⟩ producing unnested
  let context : ThreadingContext := ⟨names, program.templates.signatures⟩
  have inContext : context.names.IsGenerated := generated
  exact Template.handsBackOutput_of_thread inContext noBrace definition unnested producing threads

/-- A template that calls itself in a return, and one without a return that prints the result. -/
theorem Program.forall₂_handsBackOutput_recursive :
    let asked : Text := (Statement.mk "define \"ask\"".toList).text ++
      (Statement.mk "print 1".toList).text ++ (Statement.mk "if $x".toList).text ++
        (Statement.mk "return execTemplate \"ask\"".toList).text ++
          Marker.closer ++ (Statement.mk "return 2".toList).text ++ Marker.closer
    let said : Text := (Statement.mk "define \"say\"".toList).text ++
      (Statement.mk "print execTemplate \"ask\"".toList).text ++ ['\n'] ++ Marker.closer
    let program : Program :=
      ⟨[⟨"ask".toList, asked, 1, ⟨.producing, .valued⟩⟩,
        ⟨"say".toList, said, 2, ⟨.producing, .bare⟩⟩], []⟩
    let names : NameSupply := ⟨.reserved, Accumulator.defaultName, []⟩
    let config : Config := {}
    let threaded : Templates :=
      (program.templates.thread ⟨names, program.templates.signatures⟩ config).toOption.getD []
    ofText (asked ++ ['\n'] ++ said) = .ok program ∧ names.IsGenerated ∧ '{' ∉ config.indent ∧
      program.templates.thread ⟨names, program.templates.signatures⟩ config = .ok threaded ∧
      (∀ template ∈ program.templates,
        template.signature.isProducing = true ∧ template.text.Unnested) ∧
      List.Forall₂ (Template.HandsBackOutput names.accumulator) program.templates threaded := by
  intro asked said program names config threaded
  have extracted : ofText (asked ++ ['\n'] ++ said) = .ok program := by decide +kernel
  have generated : names.IsGenerated := NameSupply.isGenerated_reserved
  have noBrace : '{' ∉ config.indent := by decide
  have succeeds : program.templates.thread ⟨names, program.templates.signatures⟩ config =
      .ok threaded := by decide +kernel
  have flat : ∀ template ∈ program.templates,
      template.signature.isProducing = true ∧
        ∀ piece ∈ Statement.form.split template.text, Statement.IsFlatPiece piece := by
    decide +kernel
  have meets : ∀ template ∈ program.templates,
      template.signature.isProducing = true ∧ template.text.Unnested := by
    intro template member
    refine ⟨(flat template member).1, Statement.form.split template.text, ?_,
      Statement.form.join_split template.text⟩
    exact Statement.delimited_of_isFlatPiece (flat template member).2
  have each := forall₂_handsBackOutput _ extracted names generated config noBrace succeeds
  have handsBack := ((List.forall₂_and_left _ _).mpr ⟨meets, each⟩).imp
    fun template result both => both.2 both.1.1 both.1.2
  exact ⟨extracted, generated, noBrace, succeeds, meets, handsBack⟩

/-- Where callers expect a value, a return without one hands back no pair.  Where they expect none, a
return with a value can only come out of a statement within a statement or out of the indentation. -/
theorem Program.returns_at_odds_with_signature :
    let names : NameSupply := ⟨.reserved, Accumulator.defaultName, []⟩
    let returnsOf (text indent : Text) : Except CompileError (List (Signature × List Return)) := do
      let program ← ofText text
      let threaded ← program.templates.thread ⟨names, program.templates.signatures⟩
        { indent := indent }
      return threaded.map fun template =>
        (template.signature, Return.form.phrases template.text)
    let head : Text := (Statement.mk "define \"a\"".toList).text ++
      (Statement.mk "print 1".toList).text
    let mixed : Text := head ++ (Statement.mk "if 1".toList).text ++ Return.bare.text ++
      Marker.closer ++ (Statement.mk "return 5".toList).text ++ Marker.closer
    let nested : Text := head ++
      (Statement.mk ("execTemplate \"a\" (b ".toList ++ Return.opener ++ [' '])).text ++ Marker.closer
    let pair (value : Text) : Return := ⟨[' '], Accumulator.pair names.accumulator value, []⟩
    let alone : Return := ⟨[' '], names.accumulator, []⟩
    returnsOf mixed [' '] = .ok [(⟨.producing, .valued⟩, [alone, pair ['5']])] ∧
      returnsOf nested [' '] = .ok [(⟨.producing, .bare⟩, [pair [')']])] ∧
      returnsOf (head ++ Marker.closer) (Statement.mk "return 5".toList).text =
        .ok [(⟨.producing, .bare⟩, [pair ['5']])] ∧
      ∀ value, alone ≠ pair value := by
  intro names returnsOf head mixed nested pair alone
  refine ⟨by decide +kernel, by decide +kernel, by decide +kernel, fun value same => ?_⟩
  have first := congrArg (fun found => found.expression.head?) same
  have paired : (Accumulator.pair names.accumulator value).head? = some '(' := by
    rw [Accumulator.pair_eq]
    rfl
  exact absurd (first.trans paired) (by decide)

end OutputThreading
