import OutputThreading.Proofs.Call.Lines

/-!
# The calls of a prepared template

The head of a definition makes no call, and neither do the declaration and the return that preparing
a template adds.  The declaration goes behind the head and the return in front of the last end
statement, so all calls are moved down by the line of the declaration
(`Template.IsCut.linedCallees_prepared`).
-/

namespace OutputThreading

/-! ## The head of a definition -/

/-- A call has its word and two quotes behind it. -/
theorem Call.not_infix_of_count_le
    {front tail : Text}
    (noWord : 'x' ∉ front)
    (quotes : tail.count '"' ≤ 1)
    (call : Call) :
    ¬call.text <:+: front ++ '"' :: tail := by
  rintro ⟨before, after, equal⟩
  obtain ⟨rest, parts, twice⟩ :
      ∃ rest, call.text ++ after = ['e'] ++ 'x' :: rest ∧ 2 ≤ List.count '"' rest := by
    refine ⟨"ecTemplate".toList ++ (call.spacing ++ '"' :: (call.callee ++ '"' ::
      (call.argument ++ after))), ?_, ?_⟩
    · rw [Call.text_append, Call.opener_eq]
      rfl
    · simp only [List.count_append, List.count_cons_self]
      omega
  rw [List.append_assoc, parts, ← List.append_assoc] at equal
  rcases List.append_eq_append_iff.mp equal with ⟨part, front_eq, rest_eq⟩ | ⟨part, _, rest_eq⟩
  · -- the word would start in front of the first quote
    cases part with
    | nil => exact absurd (List.cons.inj rest_eq).1 (by decide)
    | cons c part =>
        apply noWord
        rw [front_eq, (List.cons.inj rest_eq).1]
        simp
  · cases part with
    | nil => exact absurd (List.cons.inj rest_eq).1 (by decide)
    | cons c part =>
        have tail_eq : tail = part ++ 'x' :: rest := (List.cons.inj rest_eq).2
        rw [tail_eq, List.count_append, List.count_cons_of_ne (by decide)] at quotes
        omega

/-- The statement at the head of a definition makes no call. -/
theorem Text.StartsDefinition.callees_eq_nil
    {name rest : Text}
    {head : Statement}
    (flat : head.interior.IsFlat)
    (starts : Text.StartsDefinition (head.text ++ rest) name) :
    head.callees = [] := by
  obtain ⟨spacing, padding, behind, equal, _, blank, _, unquoted, padded⟩ := starts
  have inside : head.interior <+:
      (Keyword.define.name ++ spacing) ++ '"' :: (name ++ '"' :: padding) := by
    have whole : head.interior ++ (Statement.closing ++ rest) =
        ((Keyword.define.name ++ spacing) ++ '"' :: (name ++ '"' :: padding)) ++
          (Statement.closing ++ behind) := by
      rw [Statement.text, Keyword.opener, List.append_assoc, List.append_assoc,
        List.append_assoc] at equal
      rw [List.append_cancel_left equal]
      simp only [List.append_assoc, List.cons_append]
    rcases List.append_eq_append_iff.mp whole with ⟨part, equal, _⟩ | ⟨part, interior_eq, closes⟩
    · exact ⟨part, equal.symm⟩
    · cases part with
      | nil =>
          rw [List.append_nil] at interior_eq
          rw [interior_eq]
      | cons c part =>
          -- the closing braces of the head would stand in the statement
          exfalso
          apply flat.notMem (by decide : Character.delimits '}' = true)
          rw [interior_eq, ← (List.cons.inj closes).1]
          simp
  have noWord : 'x' ∉ Keyword.define.name ++ spacing := by
    rw [List.mem_append, not_or]
    exact ⟨by decide, fun member => absurd (blank 'x' member) (by decide)⟩
  have quotes : List.count '"' (name ++ '"' :: padding) ≤ 1 := by
    have absent : '"' ∉ padding := fun member => absurd (padded '"' member) (by decide)
    rw [List.count_append, List.count_cons_self, List.count_eq_zero.mpr unquoted,
      List.count_eq_zero.mpr absent]
  rw [Statement.callees, List.map_eq_nil_iff, List.eq_nil_iff_forall_not_mem]
  intro call member
  rw [← Form.map_phrase_occurrences, List.mem_map] at member
  obtain ⟨occurrence, isOccurrence, rfl⟩ := member
  have whole := Call.form.before_append_write_append_after isOccurrence
  have within : occurrence.phrase.text <:+: head.interior := ⟨_, _, whole⟩
  exact Call.not_infix_of_count_le noWord quotes occurrence.phrase (within.trans inside.isInfix)

/-! ## Templates cut out of a text -/

/-- The template is a definition in a well-delimited text: its head, which makes no call, a body, and
the end statement. -/
structure Template.IsCut (template : Template) (head : Statement) (body : Text) : Prop where
  /-- The parts make up the text. -/
  text_eq : template.text = head.text ++ (body ++ Marker.closer)
  /-- The head is flat. -/
  head_isFlat : head.interior.IsFlat
  /-- The head makes no call. -/
  head_callees : head.callees = []
  /-- The body is well-delimited. -/
  body_delimited : body.WellDelimited

/-- A definition of a well-delimited text is a head, a body and an end statement. -/
theorem Segment.Fits.exists_isCut
    {segment : Segment}
    {behind : Text}
    (fits : segment.Fits behind)
    (delimited : segment.text.WellDelimited)
    {template : Template}
    (same : template.text = segment.text) :
    ∃ head body, template.IsCut head body := by
  obtain ⟨keyword, inside, _, _, block_eq⟩ := Block.exists_split_eq_of_isBlock fits.isBlock
  obtain ⟨pieces, flat, join_eq⟩ := delimited
  have shows : Text.Shows (Statement.opening ++ (keyword.name ++ Marker.form.join inside ++
      Marker.closer)) (pieces.filterMap Piece.phrase?) := by
    refine ⟨pieces, flat, ?_, rfl⟩
    rw [join_eq, block_eq, Keyword.opener]
    simp only [List.append_assoc]
  obtain ⟨head, rest, others, _, headFlat, rest_eq, restShows⟩ := shows.exists_of_opening_append
  have text_eq : segment.text = head.text ++ rest := by
    rw [block_eq, Keyword.opener, Statement.text, List.append_assoc, List.append_assoc,
      ← List.append_assoc keyword.name, rest_eq]
    simp only [List.append_assoc]
  have silent : head.callees = [] := by
    have starts := fits.starts
    rw [Segment.whole, text_eq, List.append_assoc, List.append_assoc] at starts
    exact starts.callees_eq_nil headFlat
  obtain ⟨body, rest_is⟩ : ∃ body, rest = body ++ Marker.closer := by
    rw [List.append_assoc head.interior] at rest_eq
    rcases List.append_eq_append_iff.mp rest_eq with ⟨part, front_eq, parts⟩ | ⟨part, _, parts⟩
    · -- the end statement starts with a brace, which does not stand in the head
      exfalso
      match part with
      | [] => exact absurd (List.cons.inj parts).1 (by decide)
      | c :: part =>
          apply headFlat.notMem (by decide : Character.delimits '{' = true)
          rw [front_eq, ← (List.cons.inj parts).1]
          simp
    · match part with
      | [] => exact absurd (List.cons.inj parts).1 (by decide)
      | [c] => exact absurd (List.cons.inj (List.cons.inj parts).2).1 (by decide)
      | c :: d :: body => exact ⟨body, (List.cons.inj (List.cons.inj parts).2).2⟩
  rw [rest_is] at text_eq restShows
  exact ⟨head, body, same.trans text_eq, headFlat, silent,
    restShows.wellDelimited.of_append_opening.1⟩

/-! ## Preparing a template -/

theorem Text.isSilent_closer : Text.IsSilent Marker.closer := by
  have flat : Statement.ending.interior.IsFlat := by decide
  exact .of_statement flat (by decide +kernel)

/-- Collecting prints goes part by part. -/
theorem Text.WellDelimited.collectPrints_append
    {front rest : Text}
    (first : front.WellDelimited)
    (second : rest.WellDelimited)
    (accumulator : Text) :
    Text.collectPrints (front ++ rest) accumulator =
      front.collectPrints accumulator ++ rest.collectPrints accumulator := by
  obtain ⟨pieces, flat, rfl⟩ := first
  obtain ⟨behind, flatBehind, rfl⟩ := second
  have flatBoth := List.forall_mem_append.mpr ⟨flat, flatBehind⟩
  rw [← Form.join_append, Text.collectPrints_join (Statement.delimited_of_isFlatPiece flat),
    Text.collectPrints_join (Statement.delimited_of_isFlatPiece flatBehind),
    Text.collectPrints_join (Statement.delimited_of_isFlatPiece flatBoth), List.map_append,
    Form.join_append]

theorem Text.collectPrints_closer (accumulator : Text) :
    Text.collectPrints Marker.closer accumulator = Marker.closer := by
  have delimited : Statement.Delimited [.phrase Statement.ending] :=
    .phrase (Statement.isPlain_of_isFlat (by decide)) .nil
  have noPrint : Statement.ending.print? = none := by decide
  have collected := Text.collectPrints_join delimited accumulator
  rw [List.map_cons, Piece.map, Statement.collected, noPrint] at collected
  exact collected

/-- A return that is added in front of the last end statement has no effect on the calls. -/
theorem Text.WellDelimited.linedCallees_ensureReturn
    {front indent : Text}
    (delimited : front.WellDelimited)
    (noOpening : '{' ∉ indent)
    (noClosing : '}' ∉ indent) :
    (Text.ensureReturn (front ++ Marker.closer) indent).linedCallees = front.linedCallees := by
  have last : Marker.closer.breakOnLast? Marker.closer = some ([], []) := by decide
  have found := Text.breakOnLast?_append_of_eq_some last front
  rw [List.append_nil] at found
  have flat : Statement.returning.interior.IsFlat := by decide
  have returning : Text.IsSilent Return.bare.text := .of_statement flat (by decide +kernel)
  unfold Text.ensureReturn
  split
  · exact delimited.linedCallees_append_silent isSilent_closer
  · rw [found]
    simp only [List.append_nil]
    split
    next blank =>
      have noBrace (c : Char) (solid : Character.isSpace c = false) : c ∉ front.lastLine := by
        intro member
        rw [List.all_eq_true.mp blank c member] at solid
        cases solid
      have margin : front.lastLine.IsSilent :=
        .of_notMem (noBrace '{' (by decide)) (noBrace '}' (by decide))
      have before : front.beforeLastLine.WellDelimited := by
        obtain ⟨pieces, flat, join_eq⟩ := delimited
        have shows : Text.Shows (front.beforeLastLine ++ front.lastLine)
            (pieces.filterMap Piece.phrase?) :=
          ⟨pieces, flat, by rw [join_eq, Text.beforeLastLine_append_lastLine], rfl⟩
        exact (shows.of_append_right (noBrace '}' (by decide))).wellDelimited
      have added : Text.IsSilent (indent ++ (Return.bare.text ++ (['\n'] ++
          (front.lastLine ++ Marker.closer)))) :=
        (Text.IsSilent.of_notMem noOpening noClosing).append <| returning.append <|
          (Text.IsSilent.of_notMem (by decide) (by decide)).append (margin.append isSilent_closer)
      have same := before.linedCallees_append_silent margin
      rw [Text.beforeLastLine_append_lastLine] at same
      rw [same]
      simpa only [List.append_assoc] using before.linedCallees_append_silent added
    next =>
      rw [List.append_assoc]
      exact delimited.linedCallees_append_silent (returning.append isSilent_closer)

/-- The line that declares the accumulator makes no call. -/
theorem Accumulator.isSilent_declare
    {names : NameSupply}
    (generated : names.IsGenerated)
    {indent : Text}
    (noOpening : '{' ∉ indent)
    (noClosing : '}' ∉ indent) :
    Text.IsSilent ('\n' :: indent ++ Accumulator.declare names.accumulator) ∧
      Text.breaks ('\n' :: indent ++ Accumulator.declare names.accumulator) =
        1 + indent.breaks := by
  have flat := Accumulator.isFlat_declaring generated.accumulator_isName
  have absent := generated.notMem_accumulator (by decide : 'e'.isDigit = false) (by decide)
  constructor
  · have noCall : 'e' ∉ (Accumulator.declaring names.accumulator).interior := by
      rw [Accumulator.declaring, List.mem_append, not_or]
      exact ⟨absent, by decide⟩
    have silent : (Accumulator.declaring names.accumulator).callees = [] := by
      rw [Statement.callees, Call.phrases_eq_nil_of_notMem noCall, List.map_nil]
    exact (Text.IsSilent.of_notMem (by simp [noOpening]) (by simp [noClosing])).append
      (.of_statement flat silent)
  · have declare := Statement.breaks_text_of_isFlat flat
    change Text.breaks (Accumulator.declare names.accumulator) = 0 at declare
    rw [Text.breaks_append, declare, Text.breaks, List.count_cons_self, Nat.add_comm 1]
    rfl

/-- Preparing a template moves its calls down by the line of the declaration. -/
theorem Template.IsCut.linedCallees_prepared
    {template : Template}
    {head : Statement}
    {body : Text}
    (cut : template.IsCut head body)
    {names : NameSupply}
    (generated : names.IsGenerated)
    {indent : Text}
    (noOpening : '{' ∉ indent)
    (noClosing : '}' ∉ indent) :
    (template.prepared names.accumulator indent).linedCallees =
      template.text.linedCallees.map fun (line, callee) => (line + (1 + indent.breaks), callee) := by
  obtain ⟨silentLine, added⟩ := Accumulator.isSilent_declare generated noOpening noClosing
  have declared : template.text.declareAccumulator names.accumulator indent =
      head.text ++ ('\n' :: indent ++ Accumulator.declare names.accumulator) ++ body ++
        Marker.closer := by
    have plain := Statement.isPlain_of_isFlat cut.head_isFlat
    rw [cut.text_eq, Text.declareAccumulator_of_breakOn? (plain.breakOn?_text_append _)]
    simp [Statement.text]
  generalize '\n' :: indent ++ Accumulator.declare names.accumulator = line at *
  have silentHead : Text.IsSilent head.text := .of_statement cut.head_isFlat cut.head_callees
  have silentBoth := silentHead.append silentLine
  have front := silentBoth.wellDelimited.append cut.body_delimited
  obtain ⟨collected, same⟩ := front.collectPrints generated
  have noBreak := Statement.breaks_text_of_isFlat cut.head_isFlat
  have source : template.text.linedCallees = body.linedCalleesFrom 1 := by
    rw [cut.text_eq, ← List.append_assoc, (silentHead.wellDelimited.append
      cut.body_delimited).linedCallees_append_silent Text.isSilent_closer,
      silentHead.linedCallees_append cut.body_delimited, noBreak]
  have prepared : template.prepared names.accumulator indent =
      ((head.text ++ line ++ body).collectPrints names.accumulator ++ Marker.closer).ensureReturn
        indent := by
    simp only [Template.prepared]
    rw [declared, front.collectPrints_append Text.isSilent_closer.wellDelimited,
      Text.collectPrints_closer]
  rw [prepared, collected.linedCallees_ensureReturn noOpening noClosing, same,
    silentBoth.linedCallees_append cut.body_delimited, Text.breaks_append, noBreak, added,
    Nat.zero_add, Text.linedCalleesFrom_add, source]

end OutputThreading
