import OutputThreading.Proofs.Form.Occurrences
import OutputThreading.Proofs.Program.Delimited

/-!
# Calls on their lines

The calls of a text are listed with the lines they stand on (`Text.linedCallees`).  The list for a
well-delimited text is put together from those of its parts, each moved down by the line breaks in
front of it; text without calls only moves what follows it, and collecting prints moves nothing.
-/

namespace OutputThreading

/-! ## Flat statements -/

theorem Statement.breaks_text_of_isFlat {statement : Statement} (flat : statement.interior.IsFlat) :
    statement.text.breaks = 0 := by
  have absent : '\n' ∉ statement.interior := flat.notMem (by decide)
  rw [text, Text.breaks_append, Text.breaks_append, Text.breaks, Text.breaks, Text.breaks,
    List.count_eq_zero.mpr absent]
  decide

/-- A text with flat statements is read piece by piece. -/
theorem Statement.split_join_of_isFlatPiece
    {pieces : List (Piece Statement)}
    (flat : ∀ piece ∈ pieces, IsFlatPiece piece) :
    form.split (form.join pieces) = pieces := by
  rw [form_isKind.isBraced.split_join (delimited_of_isFlatPiece flat)]
  induction pieces with
  | nil => rfl
  | cons piece pieces inductionHypothesis =>
      rw [List.forall_mem_cons] at flat
      rw [List.flatMap_cons, inductionHypothesis flat.2]
      cases piece with
      | char c => rw [Piece.text_char, form_isKind.isBraced.split_singleton, List.singleton_append]
      | phrase statement =>
          have inline : statement.inline? = some statement :=
            if_neg (Text.IsFlat.notMem flat.1 (by decide))
          rw [Piece.text_phrase, form_isKind.split_text (isPlain_of_isFlat flat.1), inline]
          rfl

/-! ## Calls -/

namespace Text

/-- The names of the templates that the statements of a text call, each with the line of its
statement, when the text starts on `line`. -/
def linedCalleesFrom (line : Nat) (text : Text) : List (Nat × Text) :=
  (Statement.form.linedFrom line (Statement.form.split text)).flatMap fun (place, statement) =>
    statement.callees.map fun callee => (place, callee)

/-- The names of the templates that the statements of a text call, each with the line of its
statement, counted from one. -/
def linedCallees (text : Text) : List (Nat × Text) :=
  text.linedCalleesFrom 1

@[simp] theorem linedCalleesFrom_nil (line : Nat) : linedCalleesFrom line [] = [] := by
  rw [linedCalleesFrom, Form.split_nil]
  rfl

/-- Forgetting the lines gives the called templates. -/
theorem map_snd_linedCalleesFrom (line : Nat) (text : Text) :
    (text.linedCalleesFrom line).map Prod.snd = text.callees := by
  rw [linedCalleesFrom, List.map_flatMap, callees, Form.phrases,
    ← Statement.form.map_snd_linedFrom line, List.flatMap_map]
  simp only [List.map_map]
  congr 1
  funext lined
  exact List.map_id _

theorem linedCalleesFrom_eq_nil {text : Text} (silent : text.callees = []) (line : Nat) :
    text.linedCalleesFrom line = [] := by
  rw [← List.map_eq_nil_iff (f := Prod.snd), map_snd_linedCalleesFrom, silent]

/-- Moving the start of a text moves all its calls. -/
theorem linedCalleesFrom_add (line offset : Nat) (text : Text) :
    text.linedCalleesFrom (line + offset) =
      (text.linedCalleesFrom line).map fun (place, callee) => (place + offset, callee) := by
  rw [linedCalleesFrom, Form.linedFrom_add, List.flatMap_map, linedCalleesFrom, List.map_flatMap]
  simp only [List.map_map]
  rfl

/-- A call stands in a statement on the line behind the line breaks in front of the statement. -/
theorem exists_of_mem_linedCalleesFrom
    {line place : Nat}
    {text name : Text}
    (member : (place, name) ∈ text.linedCalleesFrom line) :
    ∃ (before : Text) (statement : Statement) (after : Text),
      text = before ++ statement.text ++ after ∧ name ∈ statement.callees ∧
        place = line + before.breaks := by
  obtain ⟨⟨found, statement⟩, lined, isCallee⟩ := List.mem_flatMap.mp member
  obtain ⟨callee, called, equal⟩ := List.mem_map.mp isCallee
  obtain ⟨rfl, rfl⟩ := Prod.mk.inj equal
  obtain ⟨before, after, text_eq, place_eq⟩ := Statement.form.exists_eq_append_of_mem_linedFrom lined
  exact ⟨before, statement, after, text_eq, called, place_eq⟩

namespace WellDelimited

variable {front rest : Text}

theorem linedCalleesFrom_append
    (first : front.WellDelimited)
    (second : rest.WellDelimited)
    (line : Nat) :
    Text.linedCalleesFrom line (front ++ rest) =
      front.linedCalleesFrom line ++ rest.linedCalleesFrom (line + front.breaks) := by
  obtain ⟨pieces, flat, rfl⟩ := first
  obtain ⟨behind, flatBehind, rfl⟩ := second
  have flatBoth := List.forall_mem_append.mpr ⟨flat, flatBehind⟩
  unfold linedCalleesFrom
  rw [← Form.join_append, Statement.split_join_of_isFlatPiece flatBoth,
    Statement.split_join_of_isFlatPiece flat, Statement.split_join_of_isFlatPiece flatBehind,
    Form.linedFrom_append, List.flatMap_append]

theorem callees_append (first : front.WellDelimited) (second : rest.WellDelimited) :
    Text.callees (front ++ rest) = front.callees ++ rest.callees := by
  rw [← map_snd_linedCalleesFrom 1, first.linedCalleesFrom_append second, List.map_append,
    map_snd_linedCalleesFrom, map_snd_linedCalleesFrom]

end WellDelimited

/-- The text is well-delimited and makes no calls. -/
structure IsSilent (text : Text) : Prop where
  /-- The text is well-delimited. -/
  wellDelimited : text.WellDelimited
  /-- No statement of the text makes a call. -/
  callees_eq : text.callees = []

namespace IsSilent

variable {front rest : Text}

theorem append (first : front.IsSilent) (second : rest.IsSilent) : Text.IsSilent (front ++ rest) := by
  refine ⟨first.wellDelimited.append second.wellDelimited, ?_⟩
  rw [first.wellDelimited.callees_append second.wellDelimited, first.callees_eq, second.callees_eq]
  rfl

theorem of_notMem {text : Text} (noOpening : '{' ∉ text) (noClosing : '}' ∉ text) :
    text.IsSilent := by
  have shows := Shows.of_notMem noOpening noClosing
  exact ⟨shows.wellDelimited, by rw [callees, shows.phrases_eq, List.flatMap_nil]⟩

theorem of_statement
    {statement : Statement}
    (flat : statement.interior.IsFlat)
    (silent : statement.callees = []) :
    statement.text.IsSilent := by
  have shows := Shows.of_statement flat
  refine ⟨shows.wellDelimited, ?_⟩
  rw [callees, shows.phrases_eq, List.flatMap_cons, List.flatMap_nil, List.append_nil, silent]

/-- Text without calls only moves the calls behind it. -/
theorem linedCallees_append (silent : front.IsSilent) (delimited : rest.WellDelimited) :
    Text.linedCallees (front ++ rest) = rest.linedCalleesFrom (1 + front.breaks) := by
  rw [linedCallees, silent.wellDelimited.linedCalleesFrom_append delimited,
    linedCalleesFrom_eq_nil silent.callees_eq, List.nil_append]

end IsSilent

/-- Text without calls has no effect on the calls in front of it. -/
theorem WellDelimited.linedCallees_append_silent
    {front rest : Text}
    (delimited : front.WellDelimited)
    (silent : rest.IsSilent) :
    Text.linedCallees (front ++ rest) = front.linedCallees := by
  rw [linedCallees, delimited.linedCalleesFrom_append silent.wellDelimited,
    linedCalleesFrom_eq_nil silent.callees_eq, List.append_nil]
  rfl

end Text

/-! ## Collecting prints -/

/-- A print and the append that takes its place make the same calls. -/
theorem Statement.callees_collected
    {names : NameSupply}
    (generated : names.IsGenerated)
    (statement : Statement) :
    (statement.collected names.accumulator).callees = statement.callees := by
  unfold collected
  cases found : statement.print? with
  | none => rfl
  | some print =>
      obtain ⟨interior, blank⟩ := interior_of_print? found
      have absent := generated.notMem_accumulator (by decide : 'e'.isDigit = false) (by decide)
      have skipsWord : Call.form.Skips ("print".toList ++ print.spacing) print.expression := by
        apply Call.skips_of_notMem
        rw [List.mem_append, not_or]
        exact ⟨by decide, fun member => absurd (blank 'e' member) (by decide)⟩
      rw [Option.elim_some, callees, callees, Accumulator.appending, interior,
        Call.form.phrases_append_of_skips (Accumulator.skips_appendHead absent _),
        Call.form.phrases_append_of_skips skipsWord]

/-- Collecting prints keeps all calls on their lines. -/
theorem Text.WellDelimited.collectPrints
    {text : Text}
    (delimited : text.WellDelimited)
    {names : NameSupply}
    (generated : names.IsGenerated) :
    (text.collectPrints names.accumulator).WellDelimited ∧
      (text.collectPrints names.accumulator).linedCallees = text.linedCallees := by
  obtain ⟨pieces, flat, rfl⟩ := delimited
  have flatStatement : ∀ statement ∈ pieces.filterMap Piece.phrase?, statement.interior.IsFlat :=
    fun statement member => flat _ (Form.mem_filterMap_phrase?.mp member)
  have flatCollected : ∀ piece ∈ pieces.map (Piece.map (Statement.collected names.accumulator)),
      Statement.IsFlatPiece piece := by
    intro piece member
    obtain ⟨source, isSource, rfl⟩ := List.mem_map.mp member
    cases source with
    | char c => exact flat _ isSource
    | phrase statement =>
        exact Statement.isFlat_collected generated.accumulator_isName (flat _ isSource)
  rw [Text.collectPrints_join (Statement.delimited_of_isFlatPiece flat)]
  refine ⟨⟨_, flatCollected, rfl⟩, ?_⟩
  unfold linedCallees linedCalleesFrom
  rw [Statement.split_join_of_isFlatPiece flat, Statement.split_join_of_isFlatPiece flatCollected,
    Form.linedFrom_map, List.flatMap_map]
  · simp only [Statement.callees_collected generated]
  · intro statement member
    have isFlat := flatStatement statement member
    have collected := Statement.isFlat_collected generated.accumulator_isName isFlat
    exact (Statement.breaks_text_of_isFlat collected).trans
      (Statement.breaks_text_of_isFlat isFlat).symm

end OutputThreading
