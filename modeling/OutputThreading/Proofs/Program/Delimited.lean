import OutputThreading.Proofs.Program.Partition
import OutputThreading.Proofs.Statement.Shown

/-!
# Extraction cuts between statements

Braces of a well-delimited text stand at the ends of its statements, so such a text comes apart in
front of opening braces and behind closing braces.  Extraction cuts at these places only: the
definitions of a well-delimited text and its main text are well-delimited
(`Program.wellDelimited_of_ofText`).
-/

namespace OutputThreading

/-! ## Cuts -/

namespace Statement

/-- A text comes apart between pieces wherever a cut goes through no statement. -/
theorem exists_eq_append_of_join_eq_append
    {pieces : List (Piece Statement)}
    {front rest : Text}
    (equal : form.join pieces = front ++ rest)
    (edge : ∀ (statement : Statement) (head tail : Text), .phrase statement ∈ pieces →
      statement.text = head ++ tail → head <:+ front → tail <+: rest → head = [] ∨ tail = []) :
    ∃ before behind, pieces = before ++ behind ∧
      form.join before = front ∧ form.join behind = rest := by
  induction pieces generalizing front with
  | nil =>
      obtain ⟨rfl, rfl⟩ := List.append_eq_nil_iff.mp equal.symm
      exact ⟨[], [], rfl, rfl, rfl⟩
  | cons piece pieces inductionHypothesis =>
      have behindPiece {passed : Text} (front_eq : front = piece.text form.write ++ passed)
          (others : form.join pieces = passed ++ rest) :
          ∃ before behind, piece :: pieces = before ++ behind ∧
            form.join before = front ∧ form.join behind = rest := by
        obtain ⟨before, behind, rfl, before_eq, behind_eq⟩ :=
          inductionHypothesis others fun statement head tail member text_eq suffix =>
            edge statement head tail (List.mem_cons_of_mem _ member) text_eq
              (suffix.trans ⟨_, front_eq.symm⟩)
        exact ⟨piece :: before, behind, rfl, by rw [Form.join_cons, before_eq, front_eq], behind_eq⟩
      rw [Form.join_cons] at equal
      rcases List.append_eq_append_iff.mp equal with
        ⟨passed, front_eq, others⟩ | ⟨tail, piece_eq, rest_eq⟩
      · exact behindPiece front_eq others
      · have ends : front = [] ∨ tail = [] := by
          cases piece with
          | char c =>
              rw [Piece.text_char] at piece_eq
              cases front with
              | nil => exact .inl rfl
              | cons d front =>
                  have short := (List.cons.inj piece_eq).2
                  exact .inr (List.append_eq_nil_iff.mp short.symm).2
          | phrase statement =>
              exact edge statement front tail List.mem_cons_self piece_eq List.suffix_rfl
                ⟨_, rest_eq.symm⟩
        rcases ends with rfl | rfl
        · refine ⟨[], piece :: pieces, rfl, rfl, ?_⟩
          rw [Form.join_cons, rest_eq, piece_eq, List.nil_append]
        · rw [List.append_nil] at piece_eq
          rw [List.nil_append] at rest_eq
          refine @behindPiece [] ?_ rest_eq.symm
          rw [List.append_nil, piece_eq]

/-- Opening braces stand at the start of a flat statement only. -/
theorem eq_nil_of_opening_append
    {statement : Statement}
    (flat : statement.interior.IsFlat)
    {head tail rest : Text}
    (text_eq : statement.text = head ++ tail)
    (leading : tail <+: opening ++ rest) :
    head = [] ∨ tail = [] := by
  match head with
  | [] => exact .inl rfl
  | c :: head =>
      right
      have inside : tail <:+ '{' :: (statement.interior ++ closing) :=
        ⟨head, (List.cons.inj text_eq).2.symm⟩
      have few : tail.count '{' ≤ 1 := by
        have absent : '{' ∉ statement.interior := flat.notMem (by decide)
        refine (inside.sublist.count_le '{').trans ?_
        rw [List.count_cons_self, List.count_append, List.count_eq_zero.mpr absent]
        decide
      -- two characters would be both braces, and one alone would be the last of the statement
      match tail with
      | [] => rfl
      | [d] =>
          have first : d = '{' := (List.cons_prefix_cons.mp leading).1
          have last : [d] <:+ closing :=
            List.suffix_of_suffix_length_le inside ⟨'{' :: statement.interior, rfl⟩ (Nat.le_succ 1)
          rw [first] at last
          exact absurd last (by decide)
      | d :: e :: tail =>
          obtain ⟨first, second⟩ := List.cons_prefix_cons.mp leading
          rw [first, (List.cons_prefix_cons.mp second).1, List.count_cons_self,
            List.count_cons_self] at few
          omega

/-- Closing braces stand at the end of a flat statement only. -/
theorem eq_nil_of_append_closing
    {statement : Statement}
    (flat : statement.interior.IsFlat)
    {head tail front : Text}
    (text_eq : statement.text = head ++ tail)
    (trailing : head <:+ front ++ closing) :
    head = [] ∨ tail = [] := by
  rcases List.eq_nil_or_concat tail with rfl | ⟨others, last, rfl⟩
  · exact .inr rfl
  · left
    rw [List.concat_eq_append, ← List.append_assoc] at text_eq
    have inside : head <+: opening ++ statement.interior ++ ['}'] := by
      have whole : opening ++ statement.interior ++ ['}'] ++ ['}'] = head ++ others ++ [last] := by
        rw [← text_eq, List.append_assoc]
        rfl
      exact ⟨others, (List.append_inj' whole rfl).1.symm⟩
    have few : head.count '}' ≤ 1 := by
      have absent : '}' ∉ statement.interior := flat.notMem (by decide)
      refine (inside.sublist.count_le '}').trans ?_
      rw [List.count_append, List.count_append, List.count_eq_zero.mpr absent]
      decide
    rcases Nat.lt_or_ge head.length closing.length with short | long
    · -- the first character of the statement is no closing brace
      have closes : head <:+ closing :=
        List.suffix_of_suffix_length_le trailing (List.suffix_append front closing) short.le
      match head with
      | [] => rfl
      | c :: head =>
          obtain rfl : c = '{' := (List.cons_prefix_cons.mp inside).1
          exact absurd (closes.subset List.mem_cons_self) (by decide)
    · have both : closing <:+ head :=
        List.suffix_of_suffix_length_le (List.suffix_append front closing) trailing long
      have counted := (both.sublist.count_le '}').trans few
      exact absurd counted (by decide)

end Statement

namespace Text.WellDelimited

variable {front rest : Text}

theorem append (first : front.WellDelimited) (second : rest.WellDelimited) :
    Text.WellDelimited (front ++ rest) := by
  obtain ⟨pieces, flat, rfl⟩ := first
  obtain ⟨behind, flatBehind, rfl⟩ := second
  exact ⟨pieces ++ behind, List.forall_mem_append.mpr ⟨flat, flatBehind⟩, Form.join_append _ _ _⟩

theorem phrases_append (first : front.WellDelimited) (second : rest.WellDelimited) :
    Statement.form.phrases (front ++ rest) =
      Statement.form.phrases front ++ Statement.form.phrases rest := by
  obtain ⟨pieces, flat, join_eq⟩ := first
  obtain ⟨behind, flatBehind, behind_eq⟩ := second
  have shows : front.Shows (pieces.filterMap Piece.phrase?) := ⟨pieces, flat, join_eq, rfl⟩
  have showsBehind : rest.Shows (behind.filterMap Piece.phrase?) :=
    ⟨behind, flatBehind, behind_eq, rfl⟩
  rw [(shows.append showsBehind).phrases_eq, shows.phrases_eq, showsBehind.phrases_eq]

/-- A well-delimited text comes apart wherever a cut goes through no statement. -/
theorem of_append
    (delimited : Text.WellDelimited (front ++ rest))
    (edge : ∀ (statement : Statement) (head tail : Text), statement.interior.IsFlat →
      statement.text = head ++ tail → head <:+ front → tail <+: rest → head = [] ∨ tail = []) :
    front.WellDelimited ∧ rest.WellDelimited := by
  obtain ⟨pieces, flat, equal⟩ := delimited
  obtain ⟨before, behind, rfl, rfl, rfl⟩ :=
    Statement.exists_eq_append_of_join_eq_append equal fun statement head tail member =>
      edge statement head tail (flat _ member)
  rw [List.forall_mem_append] at flat
  exact ⟨⟨before, flat.1, rfl⟩, behind, flat.2, rfl⟩

theorem of_append_opening (delimited : Text.WellDelimited (front ++ (Statement.opening ++ rest))) :
    front.WellDelimited ∧ Text.WellDelimited (Statement.opening ++ rest) :=
  delimited.of_append fun _ _ _ flat text_eq _ leading =>
    Statement.eq_nil_of_opening_append flat text_eq leading

theorem of_append_closing (delimited : Text.WellDelimited (front ++ Statement.closing ++ rest)) :
    Text.WellDelimited (front ++ Statement.closing) ∧ rest.WellDelimited :=
  delimited.of_append fun _ _ _ flat text_eq trailing _ =>
    Statement.eq_nil_of_append_closing flat text_eq trailing

end Text.WellDelimited

/-! ## The parts of a partition -/

/-- The parts of a text that is cut into segments are well-delimited. -/
theorem Segment.wellDelimited_of_join
    {front : Text}
    {segments : List Segment}
    (fits : ∀ earlier segment later, segments = earlier ++ segment :: later →
      segment.Fits (Segment.join later))
    (delimited : Text.WellDelimited (front ++ Segment.join segments)) :
    front.WellDelimited ∧
      ∀ segment ∈ segments, segment.text.WellDelimited ∧ segment.main.WellDelimited := by
  induction segments generalizing front with
  | nil =>
      rw [Segment.join, List.flatMap_nil, List.append_nil] at delimited
      exact ⟨delimited, by simp⟩
  | cons segment others inductionHypothesis =>
      have fitsFirst := fits [] segment others rfl
      obtain ⟨keyword, inside, _, _, text_eq⟩ := Block.exists_split_eq_of_isBlock fitsFirst.isBlock
      have starts : front ++ Segment.join (segment :: others) =
          front ++ (Statement.opening ++ (keyword.name ++ Marker.form.join inside ++ Marker.closer ++
            (segment.gap ++ segment.main ++ Segment.join others))) := by
        simp only [Segment.join, List.flatMap_cons, Segment.whole, text_eq, Keyword.opener,
          List.append_assoc]
      rw [starts] at delimited
      obtain ⟨frontDelimited, delimited⟩ := delimited.of_append_opening
      have ends : Statement.opening ++ (keyword.name ++ Marker.form.join inside ++ Marker.closer ++
            (segment.gap ++ segment.main ++ Segment.join others)) =
          (keyword.opener ++ Marker.form.join inside ++ Statement.opening ++ "end".toList) ++
            Statement.closing ++ (segment.gap ++ segment.main ++ Segment.join others) := by
        simp only [Keyword.opener, Marker.closer, List.append_assoc]
      rw [ends] at delimited
      obtain ⟨textDelimited, delimited⟩ := delimited.of_append_closing
      have text_is : keyword.opener ++ Marker.form.join inside ++ Statement.opening ++
          "end".toList ++ Statement.closing = segment.text := by
        simp only [text_eq, Marker.closer, List.append_assoc]
      rw [text_is] at textDelimited
      have noBrace : '{' ∉ segment.gap := by
        rcases fitsFirst.gap_eq with gap_eq | ⟨gap_eq, _⟩ <;> simp [gap_eq]
      obtain ⟨pieces, flat, join_eq⟩ := delimited
      rw [List.append_assoc] at join_eq
      have shown : Text.Shows (segment.main ++ Segment.join others)
          (pieces.filterMap Piece.phrase?) :=
        Text.Shows.of_append_left noBrace ⟨pieces, flat, join_eq, rfl⟩
      obtain ⟨mainDelimited, othersDelimited⟩ := inductionHypothesis
        (fun earlier other later equal => fits (segment :: earlier) other later (by rw [equal]; rfl))
        shown.wellDelimited
      exact ⟨frontDelimited, List.forall_mem_cons.mpr ⟨⟨textDelimited, mainDelimited⟩,
        othersDelimited⟩⟩

theorem Segment.wellDelimited_flatMap
    {part : Segment → Text}
    {segments : List Segment}
    (delimited : ∀ segment ∈ segments, (part segment).WellDelimited) :
    Text.WellDelimited (segments.flatMap part) := by
  induction segments with
  | nil => exact ⟨[], by simp, rfl⟩
  | cons segment others inductionHypothesis =>
      rw [List.forall_mem_cons] at delimited
      exact delimited.1.append (inductionHypothesis delimited.2)

theorem Segment.phrases_flatMap
    {part : Segment → Text}
    {segments : List Segment}
    (delimited : ∀ segment ∈ segments, (part segment).WellDelimited) :
    Statement.form.phrases (segments.flatMap part) =
      segments.flatMap fun segment => Statement.form.phrases (part segment) := by
  induction segments with
  | nil => exact Form.phrases_nil Statement.form
  | cons segment others inductionHypothesis =>
      rw [List.forall_mem_cons] at delimited
      rw [List.flatMap_cons, List.flatMap_cons, ← inductionHypothesis delimited.2]
      exact delimited.1.phrases_append (wellDelimited_flatMap delimited.2)

/-- The statements of a segment are those of its definition and those of the main text behind it. -/
theorem Segment.Fits.phrases_whole
    {segment : Segment}
    {behind : Text}
    (fits : segment.Fits behind)
    (text : segment.text.WellDelimited)
    (main : segment.main.WellDelimited) :
    segment.whole.WellDelimited ∧
      Statement.form.phrases segment.whole =
        Statement.form.phrases segment.text ++ Statement.form.phrases segment.main := by
  have gap : segment.gap.Shows [] := by
    rcases fits.gap_eq with gap_eq | ⟨gap_eq, _⟩ <;>
      exact .of_notMem (by simp [gap_eq]) (by simp [gap_eq])
  have rest := gap.wellDelimited.append main
  refine ⟨text.append rest, ?_⟩
  rw [whole, text.phrases_append rest, gap.wellDelimited.phrases_append main, gap.phrases_eq,
    List.nil_append]

/-- The parts of a well-delimited text are well-delimited. -/
theorem Partition.wellDelimited
    {source : Text}
    (partition : Partition source)
    (delimited : source.WellDelimited) :
    partition.front.WellDelimited ∧
      ∀ segment ∈ partition.segments, segment.text.WellDelimited ∧ segment.main.WellDelimited := by
  rw [partition.source_eq] at delimited
  exact Segment.wellDelimited_of_join partition.fits delimited

/-- The templates that are extracted from a text are definitions of a partition of it. -/
theorem Program.exists_partition_templates
    {source : Text}
    {program : Program}
    (extracted : ofText source = .ok program) :
    ∃ partition : Partition source, program.main = partition.main ∧
      ∀ template ∈ program.templates, ∃ earlier segment later,
        partition.segments = earlier ++ segment :: later ∧ template.text = segment.text := by
  obtain ⟨partition, rfl⟩ := exists_partition_of_ofText extracted
  refine ⟨partition, rfl, fun template member => ?_⟩
  obtain ⟨kept, isKept, output, rfl⟩ := Templates.exists_of_mem_promote member
  obtain ⟨_, _, definitions_eq⟩ := List.append_of_mem (Templates.mem_of_mem_keepFirst isKept)
  obtain ⟨earlier, segment, later, segments_eq, _, rfl⟩ :=
    Segment.exists_eq_append_of_definitions_eq_append definitions_eq
  exact ⟨earlier, segment, later, segments_eq, rfl⟩

/-- The program that a well-delimited text describes is well-delimited. -/
theorem Program.wellDelimited_of_ofText
    {source : Text}
    {program : Program}
    (delimited : source.WellDelimited)
    (extracted : ofText source = .ok program) :
    (∀ template ∈ program.templates, template.text.WellDelimited) ∧ program.main.WellDelimited := by
  obtain ⟨partition, main_eq, templates⟩ := exists_partition_templates extracted
  obtain ⟨frontDelimited, segmentsDelimited⟩ := partition.wellDelimited delimited
  constructor
  · intro template member
    obtain ⟨earlier, segment, later, segments_eq, text_eq⟩ := templates template member
    rw [text_eq]
    exact (segmentsDelimited segment (by simp [segments_eq])).1
  · rw [main_eq]
    exact frontDelimited.append <| Segment.wellDelimited_flatMap fun segment member =>
      (segmentsDelimited segment member).2

/-- The statements of a well-delimited text, those of the main text among them, by its parts. -/
theorem Partition.phrases_eq
    {source : Text}
    (partition : Partition source)
    (delimited : source.WellDelimited) :
    Statement.form.phrases source =
        Statement.form.phrases partition.front ++ partition.segments.flatMap (fun segment =>
          Statement.form.phrases segment.text ++ Statement.form.phrases segment.main) ∧
      Statement.form.phrases partition.main =
        Statement.form.phrases partition.front ++ partition.segments.flatMap fun segment =>
          Statement.form.phrases segment.main := by
  obtain ⟨frontDelimited, segmentsDelimited⟩ := partition.wellDelimited delimited
  have wholes : ∀ segment ∈ partition.segments, segment.whole.WellDelimited ∧
      Statement.form.phrases segment.whole =
        Statement.form.phrases segment.text ++ Statement.form.phrases segment.main := by
    intro segment member
    obtain ⟨earlier, later, segments_eq⟩ := List.append_of_mem member
    obtain ⟨text, main⟩ := segmentsDelimited segment member
    exact (partition.fits earlier segment later segments_eq).phrases_whole text main
  have wholesDelimited : ∀ segment ∈ partition.segments, segment.whole.WellDelimited :=
    fun segment member => (wholes segment member).1
  have mainsDelimited : ∀ segment ∈ partition.segments, segment.main.WellDelimited :=
    fun segment member => (segmentsDelimited segment member).2
  constructor
  · refine (congrArg Statement.form.phrases partition.source_eq).trans ?_
    rw [Segment.join,
      frontDelimited.phrases_append (Segment.wellDelimited_flatMap wholesDelimited),
      Segment.phrases_flatMap wholesDelimited]
    exact congrArg (_ ++ ·) (List.flatMap_congr fun segment member => (wholes segment member).2)
  · rw [main, frontDelimited.phrases_append (Segment.wellDelimited_flatMap mainsDelimited),
      Segment.phrases_flatMap mainsDelimited]

/-- The statements of the program that a well-delimited text describes are statements of the text. -/
theorem Program.phrases_subset_of_ofText
    {source : Text}
    {program : Program}
    (delimited : source.WellDelimited)
    (extracted : ofText source = .ok program) :
    (∀ template ∈ program.templates,
        Statement.form.phrases template.text ⊆ Statement.form.phrases source) ∧
      Statement.form.phrases program.main ⊆ Statement.form.phrases source := by
  obtain ⟨partition, main_eq, templates⟩ := exists_partition_templates extracted
  obtain ⟨source_eq, phrases_main⟩ := partition.phrases_eq delimited
  rw [source_eq, main_eq, phrases_main]
  refine ⟨fun template member => ?_, ?_⟩
  · obtain ⟨earlier, segment, later, segments_eq, text_eq⟩ := templates template member
    rw [text_eq]
    refine List.Subset.trans ?_ (List.subset_append_right _ _)
    intro statement isStatement
    exact List.mem_flatMap.mpr
      ⟨segment, by simp [segments_eq], List.mem_append_left _ isStatement⟩
  · refine List.append_subset.mpr ⟨List.subset_append_left _ _,
      List.Subset.trans ?_ (List.subset_append_right _ _)⟩
    intro statement isStatement
    obtain ⟨segment, member, inMain⟩ := List.mem_flatMap.mp isStatement
    exact List.mem_flatMap.mpr ⟨segment, member, List.mem_append_right _ inMain⟩

end OutputThreading
