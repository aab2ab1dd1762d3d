import OutputThreading.Proofs.Block.Matching
import OutputThreading.Proofs.Template.Blocks
import OutputThreading.Proofs.Template.Returns

/-!
# How deep the returns of a template stand

The depth of a return is the number of blocks that are open where it stands; a return at depth one
stands directly in the body of its template.  Threading keeps the depths of the returns, and a
template without any return gets one at depth one.  Control therefore leaves every path of a template
with its output unless all its returns stand in inner blocks
(`Template.returnDepths_of_thread`).
-/

namespace OutputThreading

@[simp] theorem Block.excess_append (front behind : List Marker) :
    excess (front ++ behind) = excess front + excess behind := by
  simp only [excess, List.count_append, List.countP_append]
  omega

/-- By how many the openers outnumber the end statements of a text. -/
def Text.depth (text : Text) : Int :=
  -Block.excess (Marker.form.phrases text)

theorem Text.depth_nil : Text.depth [] = 0 := by
  simp [depth]

/-- The depths of the returns of a text, from left to right. -/
def Text.returnDepths (text : Text) : List Int :=
  (Return.form.occurrences text).map fun occurrence => occurrence.before.depth

theorem Text.returnDepths_eq_nil_iff (text : Text) :
    text.returnDepths = [] ↔ Return.form.phrases text = [] := by
  rw [returnDepths, List.map_eq_nil_iff, ← Form.map_phrase_occurrences, List.map_eq_nil_iff]

/-! ## Markers and returns in one row -/

/-- What a statement has to do with the depths of returns. -/
inductive Landmark where
  /-- The statement opens or closes a block. -/
  | marks (marker : Marker)
  /-- The statement is a return. -/
  | returns
deriving Repr, DecidableEq

namespace Landmark

/-- The depths of the returns in a row of landmarks that starts at some depth. -/
def returnDepths (depth : Int) : List Landmark → List Int
  | [] => []
  | .marks (.opens _) :: others => returnDepths (depth + 1) others
  | .marks .closes :: others => returnDepths (depth - 1) others
  | .returns :: others => depth :: returnDepths depth others

/-- Markers move the depth by their excess. -/
theorem returnDepths_map_marks_append
    (depth : Int)
    (markers : List Marker)
    (others : List Landmark) :
    returnDepths depth (markers.map .marks ++ others) =
      returnDepths (depth - Block.excess markers) others := by
  induction markers generalizing depth with
  | nil => simp
  | cons marker markers inductionHypothesis =>
      rw [List.map_cons, List.cons_append]
      cases marker with
      | opens keyword =>
          rw [returnDepths, inductionHypothesis, Block.excess_opens]
          congr 1
          omega
      | closes =>
          rw [returnDepths, inductionHypothesis, Block.excess_closes]
          congr 1
          omega

end Landmark

namespace Statement

/-- The landmark that a statement is. -/
def landmark? (statement : Statement) : Option Landmark :=
  (statement.marker?.map .marks).or (statement.return?.map fun _ => .returns)

theorem landmark?_of_return?
    {statement : Statement}
    {found : Return}
    (isReturn : statement.return? = some found) :
    statement.landmark? = some .returns := by
  rw [landmark?, marker?_eq_none_of_return? isReturn, isReturn]
  rfl

theorem landmark?_of_return?_eq_none
    {statement : Statement}
    (noReturn : statement.return? = none) :
    statement.landmark? = statement.marker?.map .marks := by
  rw [landmark?, noReturn, Option.map_none, Option.or_none]

theorem landmark?_eq_none_iff (statement : Statement) :
    statement.landmark? = none ↔ statement.marker? = none ∧ statement.return? = none := by
  rw [landmark?, Option.or_eq_none_iff, Option.map_eq_none_iff, Option.map_eq_none_iff]

/-- Statements with the same marker that are both returns or both none are the same landmark. -/
theorem landmark?_congr
    {first second : Statement}
    (markers : first.marker? = second.marker?)
    (returns : first.return?.isSome = second.return?.isSome) :
    first.landmark? = second.landmark? := by
  unfold landmark?
  rw [markers]
  cases found : first.return? <;> cases other : second.return? <;> simp_all

/-- Without returns the landmarks are the markers. -/
theorem filterMap_landmark?_of_no_return
    {statements : List Statement}
    (none : statements.filterMap return? = []) :
    statements.filterMap landmark? = (statements.filterMap marker?).map .marks := by
  rw [List.filterMap_eq_nil_iff] at none
  rw [List.map_filterMap]
  exact List.filterMap_congr fun statement member => landmark?_of_return?_eq_none (none _ member)

/-! ## The returns of a delimited text -/

theorem Delimited.of_append_left
    {front behind : List (Piece Statement)}
    (delimited : Delimited (front ++ behind)) :
    Delimited front := by
  have shorter := delimited.replace_end .nil (by simp)
  rwa [List.append_nil] at shorter

/-- A statement of a delimited text moves the depth by its marker. -/
theorem depth_join_concat
    {front : List (Piece Statement)}
    {statement : Statement}
    (delimited : Delimited (front ++ [.phrase statement])) :
    (form.join (front ++ [.phrase statement])).depth =
      (form.join front).depth - Block.excess statement.marker?.toList := by
  unfold Text.depth
  rw [Marker.phrases_join delimited, Marker.phrases_join delimited.of_append_left,
    List.filterMap_append, List.filterMap_append, Block.excess_append]
  have last : ([Piece.phrase statement].filterMap Piece.phrase?).filterMap marker? =
      statement.marker?.toList := by
    cases found : statement.marker? <;> simp [found]
  rw [last]
  omega

/-- The returns behind an initial part of a delimited text stand as deep as the landmarks tell. -/
theorem map_depth_occurrencesFrom
    {front pieces : List (Piece Statement)}
    (delimited : Delimited (front ++ pieces)) :
    (Return.form.occurrencesFrom (form.join front).reverse
        (pieces.flatMap fun piece => Return.form.split (piece.text text))).map
          (fun occurrence => occurrence.before.depth) =
      Landmark.returnDepths (form.join front).depth
        ((pieces.filterMap Piece.phrase?).filterMap landmark?) := by
  induction pieces generalizing front with
  | nil => rfl
  | cons piece pieces inductionHypothesis =>
      have shifted : front ++ piece :: pieces = front ++ [piece] ++ pieces := by simp
      rw [shifted] at delimited
      have others := inductionHypothesis delimited
      have seen : (form.join (front ++ [piece])).reverse =
          (piece.text text).reverse ++ (form.join front).reverse := by
        simp [Form.join_append]
        rfl
      rw [seen] at others
      rw [List.flatMap_cons]
      cases piece with
      | char c =>
          have depth : (form.join (front ++ [.char c])).depth = (form.join front).depth := by
            unfold Text.depth
            rw [Marker.phrases_join delimited.of_append_left,
              Marker.phrases_join delimited.of_append_left.of_append_left, List.filterMap_append,
              List.filterMap_cons_none (Piece.phrase?_char c), List.filterMap_nil, List.append_nil]
          rw [depth] at others
          rw [Piece.text_char, Return.form_isKind.isBraced.split_singleton]
          exact others
      | phrase statement =>
          have plain : statement.IsPlain := delimited.isPlain_of_mem (by simp)
          rw [depth_join_concat delimited.of_append_left] at others
          rw [Piece.text_phrase, Return.form_isKind.split_text plain,
            List.filterMap_cons_some (Piece.phrase?_phrase statement)]
          cases found : statement.return? with
          | none =>
              rw [Option.elim_none, Form.occurrencesFrom_map_char_append]
              refine others.trans ?_
              rw [← Landmark.returnDepths_map_marks_append]
              congr 1
              rw [← List.singleton_append, List.filterMap_append]
              congr 1
              cases marker : statement.marker? <;>
                simp [landmark?_of_return?_eq_none found, marker]
          | some source =>
              have written : Return.form.write source = statement.text := by
                have joined := Return.form.join_split statement.text
                rw [Return.form_isKind.split_text plain, found] at joined
                simpa using joined
              rw [marker?_eq_none_of_return? found] at others
              rw [List.filterMap_cons_some (landmark?_of_return? found), Option.elim_some,
                List.singleton_append, Form.occurrencesFrom, List.map_cons, List.reverse_reverse,
                written, Landmark.returnDepths]
              congr 1
              simpa using others

theorem returnDepths_join
    {pieces : List (Piece Statement)}
    (delimited : Delimited pieces) :
    (form.join pieces).returnDepths =
      Landmark.returnDepths 0 ((pieces.filterMap Piece.phrase?).filterMap landmark?) := by
  have whole : Delimited ([] ++ pieces) := delimited
  unfold Text.returnDepths Form.occurrences
  rw [Return.form_isKind.isBraced.split_join delimited, ← Text.depth_nil]
  exact map_depth_occurrencesFrom whole

/-! ## The landmarks of each pass -/

theorem landmark?_eq_none_of_dollar
    {statement : Statement}
    {rest : Text}
    (interior : statement.interior = '$' :: rest) :
    statement.landmark? = none := by
  rw [landmark?_eq_none_iff]
  exact ⟨marker?_eq_none_of_dollar interior, return?_eq_none_of_dollar interior⟩

theorem landmark?_collected
    {names : NameSupply}
    (generated : names.IsGenerated)
    (statement : Statement) :
    (statement.collected names.accumulator).landmark? = statement.landmark? := by
  apply landmark?_congr
  · exact marker?_collected generated statement
  · rw [return?_collected generated]

theorem landmark?_returned
    {names : NameSupply}
    (generated : names.IsGenerated)
    (statement : Statement) :
    (statement.returned names.accumulator).landmark? = statement.landmark? := by
  have nonempty : names.accumulator ≠ [] := List.ne_nil_of_mem generated.dollar_mem_accumulator
  apply landmark?_congr
  · exact marker?_returned names.accumulator statement
  · rw [return?_returned generated.accumulator_isName nonempty, Option.isSome_map]

/-- Gathering the output of a template keeps its landmarks. -/
theorem landmarks_gathered
    {names : NameSupply}
    (generated : names.IsGenerated)
    (indent : Text)
    (pieces : List (Piece Statement)) :
    ((gathered names.accumulator indent pieces).filterMap Piece.phrase?).filterMap landmark? =
      (pieces.filterMap Piece.phrase?).filterMap landmark? := by
  obtain ⟨rest, interior⟩ := generated.exists_declaring_eq_cons
  exact filterMap_gathered (landmark?_eq_none_of_dollar interior) (landmark?_collected generated)
    indent pieces

/-- A block closes as many blocks as it opens. -/
theorem excess_of_framed
    {first : Statement}
    {keyword : Keyword}
    {pieces : List (Piece Statement)}
    (framed : Framed first pieces)
    (opens : first.marker? = some (.opens keyword))
    (closed : Block.Closes 0 ((pieces.filterMap Piece.phrase?).filterMap marker?).tail) :
    Block.excess ((pieces.filterMap Piece.phrase?).filterMap marker?) = 0 := by
  have inside := (Block.closes_iff_firstExcess.mp closed).1
  obtain ⟨inner, rfl⟩ := framed
  rw [List.filterMap_cons_some (Piece.phrase?_phrase first), List.filterMap_cons_some opens]
    at inside ⊢
  rw [List.tail_cons] at inside
  rw [Block.excess_opens, inside]
  omega

end Statement

namespace ThreadingContext

variable {context : ThreadingContext}

/-- Threading calls keeps the landmarks. -/
theorem ThreadsTo.landmarks_eq
    (generated : context.names.IsGenerated)
    {pieces threaded : List (Piece Statement)}
    (threads : context.ThreadsTo pieces threaded)
    (delimited : Statement.Delimited pieces)
    (apart : ∀ statement ∈ pieces.filterMap Piece.phrase?, statement.interior.KeywordStandsApart) :
    (threaded.filterMap Piece.phrase?).filterMap Statement.landmark? =
      (pieces.filterMap Piece.phrase?).filterMap Statement.landmark? := by
  refine threads.filterMap_eq fun statement member inline => ?_
  have closes := (delimited.isPlain_of_mem member).closesOnce
  refine filterMap_threadedStatements (fun made rest => Statement.landmark?_eq_none_of_dollar)
    generated closes (fun spent => ?_) ?_
  · rw [Statement.landmark?_eq_none_iff]
    exact ⟨marker?_eq_none_of_isSpent generated spent, return?_eq_none_of_isSpent generated spent⟩
  · apply Statement.landmark?_congr
    · exact marker?_withValues (apart statement member)
    · have kinds : (context.withValues statement).return?.map Return.isValued =
          statement.return?.map Return.isValued :=
        map_isValued_return?_withValues inline
      have same := congrArg Option.isSome kinds
      rwa [Option.isSome_map, Option.isSome_map] at same

end ThreadingContext

/-! ## Templates -/

/-- The word of a call directly follows no opener of a block. -/
def Text.OpenersStandApart (text : Text) : Prop :=
  ∀ keyword : Keyword, ¬keyword.opener ++ Call.opener <:+: text

instance (text : Text) : Decidable text.OpenersStandApart :=
  decidable_of_iff (∀ keyword ∈ Keyword.all, ¬keyword.opener ++ Call.opener <:+: text) (by
    simp [Text.OpenersStandApart])

theorem Statement.keywordStandsApart_of_openersStandApart
    {pieces : List (Piece Statement)}
    (apart : (form.join pieces).OpenersStandApart) :
    ∀ statement ∈ pieces.filterMap Piece.phrase?, statement.interior.KeywordStandsApart := by
  intro statement member keyword leading
  have inside := form.write_infix_join (Form.mem_filterMap_phrase?.mp member)
  obtain ⟨rest, interior⟩ := leading
  refine apart keyword (List.IsInfix.trans ⟨[], rest ++ closing, ?_⟩ inside)
  change _ = opening ++ statement.interior ++ closing
  rw [← interior, Keyword.opener]
  simp

namespace Template

variable {context : ThreadingContext} {config : Config} {template result : Template}
  {pieces prepared : List (Piece Statement)}

/-- A threaded template returns where the prepared one does. -/
theorem returnDepths_of_prepared
    (generated : context.names.IsGenerated)
    (producing : template.signature.isProducing = true)
    (succeeds : template.thread context config = .ok result)
    (apart : ∀ statement ∈ pieces.filterMap Piece.phrase?, statement.interior.KeywordStandsApart)
    (prepares : Statement.Prepared context.names.accumulator config.indent pieces prepared)
    (delimited : Statement.Delimited prepared)
    (prepared_eq :
      template.prepared context.names.accumulator config.indent = Statement.form.join prepared) :
    result.text.returnDepths =
      Landmark.returnDepths 0
        ((prepared.filterMap Piece.phrase?).filterMap Statement.landmark?) := by
  have isName := generated.accumulator_isName
  obtain ⟨threaded, threads, threadedDelimited, threaded_eq⟩ :=
    ThreadingContext.exists_threadKnownCalls_join isName delimited
  have returned := threadedDelimited.map fun statement => Statement.isPlain_returned isName
  have text : result.text = Statement.form.join
      (threaded.map (Piece.map (Statement.returned context.names.accumulator))) := by
    rw [eq_of_thread succeeds]
    simp only [producing, if_true]
    rw [prepared_eq, threaded_eq, Text.returnOutput_join threadedDelimited]
  rw [text, Statement.returnDepths_join returned,
    Form.filterMap_phrase?_map_of_kept (Statement.landmark?_returned generated),
    threads.landmarks_eq generated delimited (prepares.apart generated apart)]

/-- A block without a return gets one in front of the end statement that closes it. -/
theorem exists_prepared_returning
    {names : NameSupply}
    (generated : names.IsGenerated)
    {indent : Text}
    (noBrace : '{' ∉ indent)
    (delimited : Statement.Delimited pieces)
    (text_eq : Statement.form.join pieces = template.text)
    {first : Statement}
    {keyword : Keyword}
    (framed : Statement.Framed first pieces)
    (opens : first.marker? = some (.opens keyword))
    (none : (pieces.filterMap Piece.phrase?).filterMap Statement.return? = []) :
    ∃ prepared landmarks, Statement.Delimited prepared ∧
      Statement.Prepared names.accumulator indent pieces prepared ∧
      template.prepared names.accumulator indent = Statement.form.join prepared ∧
      (pieces.filterMap Piece.phrase?).filterMap Statement.landmark? =
        landmarks ++ [.marks .closes] ∧
      (prepared.filterMap Piece.phrase?).filterMap Statement.landmark? =
        landmarks ++ [.returns, .marks .closes] := by
  obtain ⟨gatheredDelimited, prepared_eq⟩ :=
    prepared_eq_ensureReturn generated.accumulator_isName noBrace delimited text_eq
  have noReturn : Return.form.phrases
      (Statement.form.join (Statement.gathered names.accumulator indent pieces)) = [] := by
    rw [Return.form_isKind.phrases_join gatheredDelimited,
      Statement.filterMap_return?_gathered generated, none]
  have landmarks := Statement.landmarks_gathered generated indent pieces
  have marker : first.marker? ≠ Option.none := by simp [opens]
  obtain ⟨inner, gathered_eq⟩ := framed.gathered marker names.accumulator indent
  rw [← List.cons_append] at gathered_eq
  have found : (Statement.form.join (.phrase first :: inner ++ [.phrase Statement.ending])).breakOnLast?
      Marker.closer = some (Statement.form.join (.phrase first :: inner), []) := by
    have alone : Marker.closer.breakOnLast? Marker.closer = some ([], []) := by decide
    have last := Text.breakOnLast?_append_of_eq_some alone
      (Statement.form.join (.phrase first :: inner))
    rw [List.append_nil] at last
    rw [Form.join_append]
    exact last
  rw [gathered_eq] at gatheredDelimited noReturn prepared_eq landmarks
  obtain ⟨front, margin, gap, spacing, before_eq, resultDelimited, result_eq⟩ :=
    Statement.exists_ensureReturn_eq_join gatheredDelimited noBrace noReturn found
  have ends : Statement.ending.landmark? = some (.marks .closes) := by decide +kernel
  have returns : Statement.returning.landmark? = some .returns := by decide +kernel
  refine ⟨_, (front.filterMap Piece.phrase?).filterMap Statement.landmark?, resultDelimited,
    .returning ?_, prepared_eq.trans result_eq, ?_, ?_⟩
  · rw [gathered_eq, before_eq, List.append_assoc]
    exact .intro front margin gap spacing []
  · rw [← landmarks, before_eq]
    simp only [List.filterMap_append, List.filterMap_cons, List.filterMap_nil,
      Form.filterMap_phrase?_map_char, Piece.phrase?_phrase, List.append_nil, ends]
  · simp only [List.filterMap_append, List.filterMap_cons, List.filterMap_nil,
      Form.filterMap_phrase?_map_char, Piece.phrase?_phrase, List.nil_append, ends, returns]

/-- The returns of a producing template that is one block stay as deep as they are, and one that has
none gets one directly in its body. -/
theorem returnDepths_of_thread
    (generated : context.names.IsGenerated)
    (noBrace : '{' ∉ config.indent)
    (whole : template.text.IsBlock)
    (unnested : template.text.Unnested)
    (apart : template.text.OpenersStandApart)
    (producing : template.signature.isProducing = true)
    (succeeds : template.thread context config = .ok result) :
    result.text.returnDepths =
      if template.text.returnDepths = [] then [1] else template.text.returnDepths := by
  obtain ⟨pieces, delimited, text_eq⟩ := unnested
  rw [← text_eq] at whole apart
  obtain ⟨first, keyword, framed, opens, closed⟩ :=
    (Statement.isBlock_join_iff delimited).mp whole
  have standApart := Statement.keywordStandsApart_of_openersStandApart apart
  have returns : template.text.returnDepths = [] ↔
      (pieces.filterMap Piece.phrase?).filterMap Statement.return? = [] := by
    rw [Text.returnDepths_eq_nil_iff, ← text_eq, Return.form_isKind.phrases_join delimited]
  split
  next none =>
    rw [returns] at none
    obtain ⟨prepared, landmarks, preparedDelimited, prepares, prepared_eq, before, after⟩ :=
      exists_prepared_returning generated noBrace delimited text_eq framed opens none
    rw [returnDepths_of_prepared generated producing succeeds standApart prepares preparedDelimited
      prepared_eq, after]
    rw [Statement.filterMap_landmark?_of_no_return none, List.map_eq_append_iff] at before
    obtain ⟨inside, last, markers_eq, rfl, last_eq⟩ := before
    have closes : last = [.closes] := by
      obtain ⟨marker, others, rfl, marks, nothing⟩ := List.map_eq_cons_iff.mp last_eq
      rw [List.map_eq_nil_iff.mp nothing, Landmark.marks.inj marks]
    have balanced := Statement.excess_of_framed framed opens closed
    rw [markers_eq, closes, Block.excess_append, Block.excess_closes, Block.excess_nil] at balanced
    rw [Landmark.returnDepths_map_marks_append, Landmark.returnDepths, Landmark.returnDepths,
      Landmark.returnDepths]
    congr 1
    omega
  next some =>
    rw [returns] at some
    obtain ⟨prepared, preparedDelimited, prepared_eq, ⟨_, none⟩ | ⟨rfl, _⟩⟩ :=
      exists_prepared_eq_join generated.accumulator_isName noBrace delimited text_eq
    · rw [Statement.filterMap_return?_gathered generated] at none
      exact absurd none some
    · rw [returnDepths_of_prepared generated producing succeeds standApart .gathered
        preparedDelimited prepared_eq, Statement.landmarks_gathered generated, ← text_eq,
        Statement.returnDepths_join delimited]

/-- A producing template that is one block returns directly in its body after threading exactly if it
did so before or did not return at all. -/
theorem returns_in_body_iff_of_thread
    (generated : context.names.IsGenerated)
    (noBrace : '{' ∉ config.indent)
    (whole : template.text.IsBlock)
    (unnested : template.text.Unnested)
    (apart : template.text.OpenersStandApart)
    (producing : template.signature.isProducing = true)
    (succeeds : template.thread context config = .ok result) :
    result.text.returnDepths =
        (if template.text.returnDepths = [] then [1] else template.text.returnDepths) ∧
      (1 ∈ result.text.returnDepths ↔
        template.text.returnDepths = [] ∨ 1 ∈ template.text.returnDepths) := by
  have depths := returnDepths_of_thread generated noBrace whole unnested apart producing succeeds
  refine ⟨depths, ?_⟩
  rw [depths]
  split
  next none => simp [none]
  next some => simp [some]

/-- A template that returns early from a loop and at its end, and one that only prints in a condition
on a call. -/
theorem returns_in_body_iff_of_thread_early :
    let context : ThreadingContext :=
      ⟨⟨.reserved, Accumulator.defaultName, []⟩, fun _ => some ⟨.producing, .valued⟩⟩
    let config : Config := {}
    let early : Text := (Statement.mk "define \"f\"".toList).text ++
      (Statement.mk "range $x".toList).text ++ (Statement.mk "if $y".toList).text ++
        (Statement.mk "return execTemplate \"g\"".toList).text ++ Marker.closer ++ Marker.closer ++
          (Statement.mk "return 1".toList).text ++ Marker.closer
    let silent : Text := (Statement.mk "define \"h\"".toList).text ++ ['\n'] ++
      (Statement.mk "if execTemplate \"g\"".toList).text ++
        (Statement.mk "print 1".toList).text ++ Marker.closer ++ ['\n'] ++ Marker.closer
    context.names.IsGenerated ∧ '{' ∉ config.indent ∧
      (early.IsBlock ∧ early.Unnested ∧ early.OpenersStandApart) ∧
      (silent.IsBlock ∧ silent.Unnested ∧ silent.OpenersStandApart) ∧
      ∃ first second,
        Template.thread ⟨"f".toList, early, 1, ⟨.producing, .valued⟩⟩ context config = .ok first ∧
        Template.thread ⟨"h".toList, silent, 3, ⟨.producing, .bare⟩⟩ context config = .ok second ∧
        first.text.returnDepths = [3, 1] ∧ second.text.returnDepths = [1] := by
  intro context config early silent
  have generated : context.names.IsGenerated := NameSupply.isGenerated_reserved
  have noBrace : '{' ∉ config.indent := by decide
  have flat {text : Text} (flat : ∀ piece ∈ Statement.form.split text, Statement.IsFlatPiece piece) :
      text.Unnested :=
    ⟨_, Statement.delimited_of_isFlatPiece flat, Statement.form.join_split text⟩
  have ofEarly : early.IsBlock ∧ early.Unnested ∧ early.OpenersStandApart :=
    ⟨by decide +kernel, flat (by decide +kernel), by decide +kernel⟩
  have ofSilent : silent.IsBlock ∧ silent.Unnested ∧ silent.OpenersStandApart :=
    ⟨by decide +kernel, flat (by decide +kernel), by decide +kernel⟩
  have first := (@returns_in_body_iff_of_thread context config
    ⟨"f".toList, early, 1, ⟨.producing, .valued⟩⟩ _ generated noBrace ofEarly.1 ofEarly.2.1
    ofEarly.2.2 rfl rfl).1
  have second := (@returns_in_body_iff_of_thread context config
    ⟨"h".toList, silent, 3, ⟨.producing, .bare⟩⟩ _ generated noBrace ofSilent.1 ofSilent.2.1
    ofSilent.2.2 rfl rfl).1
  refine ⟨generated, noBrace, ofEarly, ofSilent, _, _, rfl, rfl, first.trans ?_, second.trans ?_⟩
  · decide +kernel
  · decide +kernel

/-- Control falls off the end of a template whose only return stands in an inner block.  It also does
where the indentation or the place of a call opens another block. -/
theorem returns_only_in_inner_block :
    let context : ThreadingContext :=
      ⟨⟨.reserved, Accumulator.defaultName, []⟩, fun _ => some ⟨.producing, .bare⟩⟩
    let returnDepths (text indent : Text) : Except CompileError (List Int) := do
      let template : Template := ⟨"f".toList, text, 1, ⟨.producing, .bare⟩⟩
      let result ← template.thread context { indent := indent }
      return result.text.returnDepths
    let head : Text := (Statement.mk "define \"f\"".toList).text ++
      (Statement.mk "print 1".toList).text
    let guarded : Text := head ++ (Statement.mk "if $x".toList).text ++ Return.bare.text ++
      Marker.closer ++ Marker.closer
    let touching : Text := head ++ (Statement.mk "ifexecTemplate \"g\"".toList).text ++
      Return.bare.text ++ Marker.closer
    let silent : Text := head ++ Marker.closer
    (∀ text ∈ [guarded, touching, silent], text.WellDelimited ∧ text.IsBlock) ∧
      context.names.IsGenerated ∧
      returnDepths guarded [' '] = .ok [2] ∧
      returnDepths touching [' '] = .ok [2] ∧
      returnDepths silent (Statement.mk "if $x".toList).text = .ok [2] := by
  intro context returnDepths head guarded touching silent
  have blocks : ∀ text ∈ [guarded, touching, silent],
      (∀ piece ∈ Statement.form.split text, Statement.IsFlatPiece piece) ∧ text.IsBlock := by
    decide +kernel
  refine ⟨fun text member => ?_, NameSupply.isGenerated_reserved, by decide +kernel,
    by decide +kernel, by decide +kernel⟩
  exact ⟨⟨Statement.form.split text, (blocks text member).1, Statement.form.join_split text⟩,
    (blocks text member).2⟩

end Template
end OutputThreading
