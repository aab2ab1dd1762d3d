import OutputThreading.Proofs.Marker
import OutputThreading.Proofs.Statement.Block
import OutputThreading.Proofs.Template.Passes

/-!
# Threading keeps the blocks

The passes over a template only add statements that are no markers, and what they do to the other
statements keeps their markers.  So the blocks of the template stay as they are.  A template that is
one block stays one, unless its first statement makes a call whose output goes in front of it.
-/

namespace OutputThreading
namespace Statement

/-! ## The passes before threading -/

/-- What the pieces of a template become before its calls are threaded. -/
inductive Prepared (accumulator indent : Text) (pieces : List (Piece Statement)) :
    List (Piece Statement) → Prop
  /-- In a pure template nothing changes. -/
  | kept : Prepared accumulator indent pieces pieces
  /-- The output of a producing template is gathered. -/
  | gathered : Prepared accumulator indent pieces (gathered accumulator indent pieces)
  /-- A producing template without a return gets one. -/
  | returning
      {result : List (Piece Statement)}
      (atEnd : ReturnsAtEnd (Statement.gathered accumulator indent pieces) result) :
      Prepared accumulator indent pieces result

theorem ReturnsAtEnd.markers_eq
    {pieces result : List (Piece Statement)}
    (returns : ReturnsAtEnd pieces result) :
    (result.filterMap Piece.phrase?).filterMap marker? =
      (pieces.filterMap Piece.phrase?).filterMap marker? := by
  cases returns with
  | intro front margin gap spacing behind =>
      have noMarker : returning.marker? = none := by decide
      simp only [List.filterMap_append, List.filterMap_cons, Form.filterMap_phrase?_map_char,
        Piece.phrase?_phrase, noMarker, List.nil_append]

theorem markers_gathered
    {names : NameSupply}
    (generated : names.IsGenerated)
    (indent : Text)
    (pieces : List (Piece Statement)) :
    ((gathered names.accumulator indent pieces).filterMap Piece.phrase?).filterMap marker? =
      (pieces.filterMap Piece.phrase?).filterMap marker? := by
  obtain ⟨rest, interior⟩ := generated.exists_declaring_eq_cons
  exact filterMap_gathered (marker?_eq_none_of_dollar interior) (marker?_collected generated) indent
    pieces

/-- Preparing a template keeps its markers. -/
theorem Prepared.markers_eq
    {names : NameSupply}
    (generated : names.IsGenerated)
    {indent : Text}
    {pieces result : List (Piece Statement)}
    (prepared : Prepared names.accumulator indent pieces result) :
    (result.filterMap Piece.phrase?).filterMap marker? =
      (pieces.filterMap Piece.phrase?).filterMap marker? := by
  cases prepared with
  | kept => rfl
  | gathered => exact markers_gathered generated indent pieces
  | returning atEnd => rw [atEnd.markers_eq, markers_gathered generated]

/-! ## Calls in a prepared template -/

theorem mem_or_eq_of_mem_declared
    {accumulator indent : Text}
    {pieces : List (Piece Statement)}
    {statement : Statement}
    (member : statement ∈ (declared accumulator indent pieces).filterMap Piece.phrase?) :
    statement ∈ pieces.filterMap Piece.phrase? ∨ statement = Accumulator.declaring accumulator := by
  let undeclared? (other : Statement) : Option Statement :=
    if other = Accumulator.declaring accumulator then none else some other
  have declaring : undeclared? (Accumulator.declaring accumulator) = none := if_pos rfl
  have same := filterMap_declared declaring indent pieces
  by_cases isDeclaring : statement = Accumulator.declaring accumulator
  · exact .inr isDeclaring
  · left
    have found : statement ∈ (pieces.filterMap Piece.phrase?).filterMap undeclared? := by
      rw [← same, List.mem_filterMap]
      exact ⟨statement, member, if_neg isDeclaring⟩
    obtain ⟨source, isSource, equal⟩ := List.mem_filterMap.mp found
    obtain ⟨_, equal⟩ := Option.ite_none_left_eq_some.mp equal
    rwa [← Option.some.inj equal]

/-- A print of which the calls are threaded starts with a variable. -/
theorem collected_apart
    {names : NameSupply}
    (generated : names.IsGenerated)
    {statement : Statement}
    (apart : statement.interior.KeywordStandsApart) :
    (statement.collected names.accumulator).interior.KeywordStandsApart := by
  unfold collected
  cases statement.print? with
  | some print =>
      obtain ⟨rest, interior⟩ := generated.exists_appending_eq_cons print.expression
      rw [Option.elim_some, interior]
      exact Text.keywordStandsApart_of_dollar rest
  | none => exact apart

/-- In a prepared template keywords stand apart from calls. -/
theorem Prepared.apart
    {names : NameSupply}
    (generated : names.IsGenerated)
    {indent : Text}
    {pieces result : List (Piece Statement)}
    (prepared : Prepared names.accumulator indent pieces result)
    (apart : ∀ statement ∈ pieces.filterMap Piece.phrase?, statement.interior.KeywordStandsApart) :
    ∀ statement ∈ result.filterMap Piece.phrase?, statement.interior.KeywordStandsApart := by
  have inGathered : ∀ statement ∈
      (Statement.gathered names.accumulator indent pieces).filterMap Piece.phrase?,
      statement.interior.KeywordStandsApart := by
    intro statement member
    unfold Statement.gathered at member
    rw [Form.filterMap_phrase?_map] at member
    obtain ⟨source, isSource, rfl⟩ := List.mem_map.mp member
    apply collected_apart generated
    rcases mem_or_eq_of_mem_declared isSource with isSource | rfl
    · exact apart source isSource
    · obtain ⟨rest, interior⟩ := generated.exists_declaring_eq_cons
      rw [interior]
      exact Text.keywordStandsApart_of_dollar rest
  intro statement member
  cases prepared with
  | kept => exact apart statement member
  | gathered => exact inGathered statement member
  | returning atEnd =>
      generalize Statement.gathered names.accumulator indent pieces = source at atEnd inGathered
      cases atEnd with
      | intro front margin gap spacing behind =>
          by_cases isReturning : statement = Statement.returning
          · rintro keyword ⟨rest, equal⟩
            rw [isReturning, Call.opener_eq] at equal
            cases keyword <;> cases equal
          · apply inGathered
            simpa [isReturning, Form.filterMap_phrase?_map_char] using member

/-! ## The first and the last statement -/

namespace Framed

variable {first : Statement} {pieces : List (Piece Statement)}

theorem declared (framed : Framed first pieces) (accumulator indent : Text) :
    Framed first (declared accumulator indent pieces) := by
  obtain ⟨inner, rfl⟩ := framed
  exact ⟨Accumulator.declarationLine accumulator indent ++ inner, by simp [Statement.declared]⟩

theorem gathered
    (framed : Framed first pieces)
    (marker : first.marker? ≠ none)
    (accumulator indent : Text) :
    Framed first (gathered accumulator indent pieces) := by
  have last : ending.marker? ≠ none := by rw [marker?_ending]; simp
  exact (framed.declared accumulator indent).map (collected_eq_self marker accumulator)
    (collected_eq_self last accumulator)

/-- A return at the end stands inside of the frame. -/
theorem returnsAtEnd
    {result : List (Piece Statement)}
    (framed : Framed first pieces)
    (other : first ≠ ending)
    (returns : ReturnsAtEnd pieces result) :
    Framed first result := by
  cases returns with
  | intro front margin gap spacing behind =>
      obtain ⟨inner, equal⟩ := framed
      cases front with
      | nil =>
          -- the first statement would have to be the end statement
          cases spacing with
          | nil => exact absurd (Piece.phrase.inj (List.cons.inj equal).1).symm other
          | cons c spacing => cases (List.cons.inj equal).1
      | cons piece front =>
          obtain ⟨rfl, equal⟩ := List.cons.inj equal
          rcases List.eq_nil_or_concat behind with rfl | ⟨others, last, rfl⟩
          · refine ⟨front ++ (margin.map .char ++ .phrase returning :: (gap.map .char ++
              spacing.map .char)), ?_⟩
            simp
          · have ends : last = .phrase ending := by
              have lasts := congrArg List.getLast? equal
              simpa [List.getLast?_append, List.getLast?_cons] using lasts
            refine ⟨front ++ (margin.map .char ++ .phrase returning :: (gap.map .char ++
              (spacing.map .char ++ .phrase ending :: others))), ?_⟩
            simp [ends]

/-- Preparing a template keeps the frame. -/
theorem prepared
    {accumulator indent : Text}
    {result : List (Piece Statement)}
    (framed : Framed first pieces)
    {keyword : Keyword}
    (opens : first.marker? = some (.opens keyword))
    (prepared : Prepared accumulator indent pieces result) :
    Framed first result := by
  have marker : first.marker? ≠ none := by rw [opens]; simp
  have other : first ≠ ending := by
    rintro rfl
    rw [marker?_ending] at opens
    cases opens
  cases prepared with
  | kept => exact framed
  | gathered => exact framed.gathered marker accumulator indent
  | returning atEnd => exact (framed.gathered marker accumulator indent).returnsAtEnd other atEnd

end Framed
end Statement

/-! ## Threading within the frame -/

namespace ThreadingContext

variable {context : ThreadingContext}

theorem threadedStatements_eq_singleton
    {statement : Statement}
    (none : context.setupStatements statement = []) :
    context.threadedStatements statement = [statement] := by
  rw [threadedStatements, if_pos none]

theorem setupStatements_ending : context.setupStatements Statement.ending = [] := by
  rw [setupStatements_eq_nil_iff]
  have noCall : Call.form.phrases Statement.ending.interior = [] := by decide +kernel
  rw [noCall]
  intro call member
  cases member

/-- An end statement at the end stays there. -/
theorem ThreadsTo.exists_eq_append_ending
    {inner threaded : List (Piece Statement)}
    (threads : context.ThreadsTo (inner ++ [.phrase Statement.ending]) threaded) :
    ∃ front, threaded = front ++ [.phrase Statement.ending] := by
  induction inner generalizing threaded with
  | nil =>
      cases threads with
      | broken newline others => exact absurd newline (by decide)
      | inline newline line others =>
          cases others
          rw [threadedStatements_eq_singleton setupStatements_ending]
          exact ⟨[], rfl⟩
  | cons piece inner inductionHypothesis =>
      cases threads with
      | char c others =>
          obtain ⟨front, rfl⟩ := inductionHypothesis others
          exact ⟨.char c :: front, rfl⟩
      | broken newline others =>
          obtain ⟨front, rfl⟩ := inductionHypothesis others
          exact ⟨_ :: front, rfl⟩
      | inline newline line others =>
          obtain ⟨front, rfl⟩ := inductionHypothesis others
          exact ⟨_ ++ front, (List.append_assoc _ _ _).symm⟩

/-- Threading keeps the frame if nothing goes in front of the first statement. -/
theorem ThreadsTo.framed
    {first : Statement}
    {pieces threaded : List (Piece Statement)}
    (threads : context.ThreadsTo pieces threaded)
    (framed : Statement.Framed first pieces)
    (closes : first.ClosesOnce)
    (none : context.setupStatements first = []) :
    Statement.Framed first threaded := by
  obtain ⟨inner, rfl⟩ := framed
  cases threads with
  | broken newline others =>
      obtain ⟨front, rfl⟩ := others.exists_eq_append_ending
      exact ⟨front, rfl⟩
  | inline newline line others =>
      obtain ⟨front, rfl⟩ := others.exists_eq_append_ending
      rw [threadedStatements_eq_singleton none]
      refine ⟨first.leftOver.map .char ++ front, ?_⟩
      simp [Statement.laidOut, Statement.pieces, closes.asRead_eq]

/-- A call that is threaded puts a statement with a variable in front of the first statement. -/
theorem ThreadsTo.exists_eq_cons_of_setup
    (generated : context.names.IsGenerated)
    {first : Statement}
    {pieces threaded : List (Piece Statement)}
    (threads : context.ThreadsTo (.phrase first :: pieces) threaded)
    (inline : '\n' ∉ first.interior)
    (setup : context.setupStatements first ≠ []) :
    ∃ made rest others, threaded = .phrase made :: others ∧ made.interior = '$' :: rest := by
  cases threads with
  | broken newline others => exact absurd newline inline
  | inline newline line others =>
      obtain ⟨source, later, setup_eq⟩ := List.exists_cons_of_ne_nil setup
      have member : source ∈ context.setupStatements first := by
        rw [setup_eq]
        exact List.mem_cons_self
      obtain ⟨rest, interior⟩ := exists_interior_eq_of_mem_setupStatements generated member
      obtain ⟨more, asRead⟩ := Statement.exists_interior_asRead_eq interior
      rw [threadedStatements_eq, setup_eq, List.cons_append]
      generalize later ++ _ = statements
      cases statements with
      | nil => exact ⟨source.asRead, more, _, rfl, asRead⟩
      | cons next statements => exact ⟨source.asRead, more, _, rfl, asRead⟩

end ThreadingContext
/-! ## Templates -/

/-- Threading a template prepares its pieces, threads their calls, and hands back the output of a
producing template. -/
theorem Template.exists_thread_eq_join
    {context : ThreadingContext}
    (generated : context.names.IsGenerated)
    {config : Config}
    (noBrace : '{' ∉ config.indent)
    {template result : Template}
    {pieces : List (Piece Statement)}
    (delimited : Statement.Delimited pieces)
    (text_eq : Statement.form.join pieces = template.text)
    (succeeds : template.thread context config = .ok result) :
    ∃ prepared threaded made,
      Statement.Prepared context.names.accumulator config.indent pieces prepared ∧
      Statement.Delimited prepared ∧ context.ThreadsTo prepared threaded ∧
      (made = threaded ∨
        made = threaded.map (Piece.map (Statement.returned context.names.accumulator))) ∧
      Statement.Delimited made ∧ result.text = Statement.form.join made := by
  have isName := generated.accumulator_isName
  rw [eq_of_thread succeeds]
  by_cases producing : template.signature.isProducing = true
  · obtain ⟨prepared, preparedDelimited, equal, shape⟩ :=
      exists_prepared_eq_join isName noBrace delimited text_eq
    obtain ⟨threaded, threads, threadedDelimited, threaded_eq⟩ :=
      ThreadingContext.exists_threadKnownCalls_join isName preparedDelimited
    refine ⟨prepared, threaded, _, ?_, preparedDelimited, threads, .inr rfl,
      threadedDelimited.map fun statement => Statement.isPlain_returned isName, ?_⟩
    · rcases shape with ⟨atEnd, _⟩ | ⟨rfl, _⟩
      · exact .returning atEnd
      · exact .gathered
    · simp only [producing, if_true]
      rw [equal, threaded_eq, Text.returnOutput_join threadedDelimited]
  · obtain ⟨threaded, threads, threadedDelimited, threaded_eq⟩ :=
      ThreadingContext.exists_threadKnownCalls_join isName delimited
    refine ⟨pieces, threaded, _, .kept, delimited, threads, .inl rfl, threadedDelimited, ?_⟩
    simp only [producing]
    rw [← text_eq]
    exact threaded_eq

namespace Statement

/-- In the statements of a text in which calls stand apart keywords stand apart from calls. -/
theorem keywordStandsApart_of_mem
    {pieces : List (Piece Statement)}
    (apart : (form.join pieces).CallsStandApart) :
    ∀ statement ∈ pieces.filterMap Piece.phrase?, statement.interior.KeywordStandsApart := by
  intro statement member
  have inside := form.write_infix_join (Form.mem_filterMap_phrase?.mp member)
  have callsApart : statement.interior.CallsStandApart :=
    apart.of_infix (List.IsInfix.trans ⟨opening, closing, rfl⟩ inside)
  exact callsApart.keywordStandsApart

end Statement

/-- Threading a template keeps its markers and, if it puts nothing in front of the first statement,
its frame. -/
theorem Template.exists_thread_keeps_markers
    {context : ThreadingContext}
    (generated : context.names.IsGenerated)
    {config : Config}
    (noBrace : '{' ∉ config.indent)
    {template result : Template}
    {pieces : List (Piece Statement)}
    (delimited : Statement.Delimited pieces)
    (text_eq : Statement.form.join pieces = template.text)
    (apart : template.text.CallsStandApart)
    (succeeds : template.thread context config = .ok result) :
    ∃ made, Statement.Delimited made ∧ result.text = Statement.form.join made ∧
      (made.filterMap Piece.phrase?).filterMap Statement.marker? =
        (pieces.filterMap Piece.phrase?).filterMap Statement.marker? ∧
      ∀ first keyword, Statement.Framed first pieces →
        first.marker? = some (.opens keyword) → '\n' ∉ first.interior →
          if context.setupStatements first = [] then Statement.Framed first made
          else ∃ other behind, made = .phrase other :: behind ∧ other.marker? = none := by
  obtain ⟨prepared, threaded, made, prepares, preparedDelimited, threads, shape, madeDelimited,
    result_eq⟩ := exists_thread_eq_join generated noBrace delimited text_eq succeeds
  refine ⟨made, madeDelimited, result_eq, ?_, fun first keyword framed opens inline => ?_⟩
  · rw [← text_eq] at apart
    have standApart := prepares.apart generated (Statement.keywordStandsApart_of_mem apart)
    have before := (threads.markers_eq generated preparedDelimited standApart).trans
      (prepares.markers_eq generated)
    rcases shape with rfl | rfl
    · exact before
    · rw [Form.filterMap_phrase?_map_of_kept (Statement.marker?_returned _), before]
  · have marker : first.marker? ≠ none := by simp [opens]
    have preparedFramed := framed.prepared opens prepares
    split
    next none =>
      have closes : first.ClosesOnce := by
        obtain ⟨inner, rfl⟩ := framed
        exact (delimited.isPlain_of_mem (by simp)).closesOnce
      have threadedFramed := threads.framed preparedFramed closes none
      rcases shape with rfl | rfl
      · exact threadedFramed
      · refine threadedFramed.map (Statement.returned_eq_self marker _) ?_
        exact Statement.returned_eq_self (by simp [Statement.marker?_ending]) _
    next setup =>
      obtain ⟨inner, rfl⟩ := preparedFramed
      obtain ⟨other, rest, behind, rfl, interior⟩ :=
        threads.exists_eq_cons_of_setup generated inline setup
      have noMarker := Statement.marker?_eq_none_of_dollar interior
      rcases shape with rfl | rfl
      · exact ⟨other, behind, rfl, noMarker⟩
      · exact ⟨_, _, rfl, (Statement.marker?_returned _ other).trans noMarker⟩

/-- A template that is one block stays one exactly if its first statement calls no template that
produces output. -/
theorem Template.isBlock_iff_of_thread
    {context : ThreadingContext}
    (generated : context.names.IsGenerated)
    {config : Config}
    (noBrace : '{' ∉ config.indent)
    {template result : Template}
    (wellDelimited : template.text.WellDelimited)
    (apart : template.text.CallsStandApart)
    (succeeds : template.thread context config = .ok result)
    (whole : template.text.IsBlock) :
    result.text.IsBlock ↔
      ∀ first ∈ (Statement.form.phrases template.text).head?,
        ∀ callee ∈ first.callees, context.threads callee = false := by
  obtain ⟨pieces, flat, text_eq⟩ := wellDelimited
  have delimited := Statement.delimited_of_isFlatPiece flat
  obtain ⟨made, madeDelimited, result_eq, markers, frame⟩ :=
    exists_thread_keeps_markers generated noBrace delimited text_eq apart succeeds
  rw [← text_eq, Statement.isBlock_join_iff delimited] at whole
  obtain ⟨first, keyword, framed, opens, closed⟩ := whole
  have calls : context.setupStatements first = [] ↔
      ∀ callee ∈ first.callees, context.threads callee = false := by
    rw [ThreadingContext.setupStatements_eq_nil_iff]
    simp [Statement.callees]
  have member : first ∈ pieces.filterMap Piece.phrase? := by
    obtain ⟨inner, rfl⟩ := framed
    simp
  have inline : '\n' ∉ first.interior :=
    (show first.interior.IsFlat from flat _ (Form.mem_filterMap_phrase?.mp member)).notMem (by decide)
  have head : (Statement.form.phrases template.text).head? = some first := by
    have stays : first.inline? = some first := if_neg inline
    obtain ⟨inner, rfl⟩ := framed
    rw [← text_eq, Statement.form_isKind.phrases_join delimited,
      List.filterMap_cons_some (Piece.phrase?_phrase first), List.filterMap_cons_some stays,
      List.head?_cons]
  have keeps := frame first keyword framed opens inline
  rw [head, result_eq, Statement.isBlock_join_iff madeDelimited, markers]
  constructor
  · rintro ⟨leading, other, ⟨inner, made_eq⟩, leadingOpens, _⟩
    split at keeps
    next none =>
      intro statement isFirst
      rw [← Option.some.inj isFirst]
      exact calls.mp none
    next setup =>
      obtain ⟨front, behind, same, noMarker⟩ := keeps
      rw [made_eq] at same
      rw [Piece.phrase.inj (List.cons.inj same).1, noMarker] at leadingOpens
      cases leadingOpens
  · intro unthreaded
    rw [if_pos (calls.mpr (unthreaded first rfl))] at keeps
    exact ⟨first, keyword, keeps, opens, closed⟩

end OutputThreading
