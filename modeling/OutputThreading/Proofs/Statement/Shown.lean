import OutputThreading.Proofs.Template.Passes

/-!
# The statements that a text shows

A well-delimited text shows its statements (`Text.Shows`).  What it shows can be put together from the
parts of the text and comes apart at line breaks, at white space around the text, and at the first and
the last of the statements.
-/

namespace OutputThreading

/-- The text consists of the statements, without braces and line breaks in them, and of text without
braces between them. -/
def Text.Shows (text : Text) (statements : List Statement) : Prop :=
  ∃ pieces, (∀ piece ∈ pieces, Statement.IsFlatPiece piece) ∧ Statement.form.join pieces = text ∧
    pieces.filterMap Piece.phrase? = statements

namespace Text.Shows

variable {text front rest : Text} {statements : List Statement}

theorem phrases_eq (shows : text.Shows statements) : Statement.form.phrases text = statements := by
  obtain ⟨pieces, flat, rfl, rfl⟩ := shows
  rw [Statement.form_isKind.phrases_join (Statement.delimited_of_isFlatPiece flat)]
  exact Statement.filterMap_inline?_of_isFlat fun statement member =>
    flat _ (Form.mem_filterMap_phrase?.mp member)

theorem wellDelimited (shows : text.Shows statements) : text.WellDelimited := by
  obtain ⟨pieces, flat, text_eq, _⟩ := shows
  exact ⟨pieces, flat, text_eq⟩

/-! ## Putting texts together -/

theorem append
    {others : List Statement}
    (first : front.Shows statements)
    (second : rest.Shows others) :
    Text.Shows (front ++ rest) (statements ++ others) := by
  obtain ⟨pieces, flat, rfl, rfl⟩ := first
  obtain ⟨behind, flatBehind, rfl, rfl⟩ := second
  exact ⟨pieces ++ behind, List.forall_mem_append.mpr ⟨flat, flatBehind⟩, Form.join_append _ _ _,
    List.filterMap_append⟩

/-- Text without braces shows no statements. -/
theorem of_notMem (noOpening : '{' ∉ text) (noClosing : '}' ∉ text) : text.Shows [] := by
  refine ⟨text.map .char, fun piece member => ?_, Form.flatMap_text_map_char _ text,
    Form.filterMap_phrase?_map_char text⟩
  obtain ⟨c, isChar, rfl⟩ := List.mem_map.mp member
  exact ⟨fun equal => noOpening (equal ▸ isChar), fun equal => noClosing (equal ▸ isChar)⟩

theorem of_statement {statement : Statement} (flat : statement.interior.IsFlat) :
    statement.text.Shows [statement] := by
  refine ⟨[.phrase statement], ?_, ?_, rfl⟩
  · rw [List.forall_mem_singleton]
    exact flat
  · rw [Form.join_cons, Form.join_nil, List.append_nil]
    rfl

/-! ## Taking texts apart -/

/-- Text without opening braces in front shows nothing. -/
theorem of_append_left
    (noOpening : '{' ∉ front)
    (shows : Text.Shows (front ++ rest) statements) :
    rest.Shows statements := by
  obtain ⟨pieces, flat, join_eq, rfl⟩ := shows
  induction front generalizing pieces with
  | nil => exact ⟨pieces, flat, join_eq, rfl⟩
  | cons c front inductionHypothesis =>
      rw [List.mem_cons, not_or] at noOpening
      match pieces with
      | [] => cases join_eq
      | .char d :: pieces =>
          exact inductionHypothesis noOpening.2 pieces
            (fun piece member => flat piece (List.mem_cons_of_mem _ member))
            (List.cons.inj join_eq).2
      | .phrase statement :: pieces => exact absurd (List.cons.inj join_eq).1 noOpening.1

/-- A line break comes between statements. -/
theorem exists_of_append_newline
    (shows : Text.Shows (front ++ '\n' :: rest) statements) :
    ∃ before behind, statements = before ++ behind ∧ front.Shows before ∧ rest.Shows behind := by
  obtain ⟨pieces, flat, join_eq, rfl⟩ := shows
  induction pieces generalizing front with
  | nil => simp at join_eq
  | cons piece pieces inductionHypothesis =>
      rw [List.forall_mem_cons] at flat
      rw [Form.join_cons] at join_eq
      have inner {part : Text} (front_eq : front = piece.text Statement.text ++ part)
          (others : Statement.form.join pieces = part ++ '\n' :: rest) :
          ∃ before behind, (piece :: pieces).filterMap Piece.phrase? = before ++ behind ∧
            front.Shows before ∧ rest.Shows behind := by
        obtain ⟨before, behind, phrases_eq, showsBefore, showsBehind⟩ :=
          inductionHypothesis flat.2 others
        refine ⟨[piece].filterMap Piece.phrase? ++ before, behind, ?_, ?_, showsBehind⟩
        · rw [List.append_assoc, ← phrases_eq, ← List.filterMap_append, List.singleton_append]
        · rw [front_eq]
          refine append ⟨[piece], ?_, ?_, rfl⟩ showsBefore
          · rw [List.forall_mem_singleton]
            exact flat.1
          · rw [Form.join_cons, Form.join_nil, List.append_nil]
            rfl
      rcases List.append_eq_append_iff.mp join_eq with
        ⟨part, front_eq, others⟩ | ⟨part, piece_eq, others⟩
      · exact inner front_eq others
      · cases part with
        | nil =>
            rw [List.append_nil] at piece_eq
            rw [List.nil_append] at others
            have front_eq : front = piece.text Statement.text ++ [] := by
              rw [List.append_nil]
              exact piece_eq.symm
            exact inner front_eq others.symm
        | cons c part =>
            -- the line break is part of the piece, so that the piece is the line break
            obtain ⟨rfl, rest_eq⟩ := List.cons.inj others
            have inside : '\n' ∈ piece.text Statement.form.write := by
              rw [piece_eq]
              simp
            cases piece with
            | phrase statement =>
                exfalso
                have parts : '\n' ∈ Statement.opening ++ statement.interior ++ Statement.closing :=
                  inside
                rw [List.mem_append, List.mem_append] at parts
                rcases parts with (opens | member) | closes
                · exact absurd opens (by decide)
                · exact absurd member (Text.IsFlat.notMem flat.1 (by decide))
                · exact absurd closes (by decide)
            | char d =>
                have short := congrArg List.length piece_eq
                rw [Piece.text_char, List.length_append] at short
                simp only [List.length_cons, List.length_nil] at short
                obtain rfl : front = [] := List.eq_nil_of_length_eq_zero (by omega)
                obtain rfl : part = [] := List.eq_nil_of_length_eq_zero (by omega)
                refine ⟨[], pieces.filterMap Piece.phrase?, rfl, ⟨[], by simp, rfl, rfl⟩, ?_⟩
                exact ⟨pieces, flat.2, rest_eq.symm, rfl⟩

/-- Text without closing braces behind shows nothing. -/
theorem of_append_right
    (noClosing : '}' ∉ rest)
    (shows : Text.Shows (front ++ rest) statements) :
    front.Shows statements := by
  obtain ⟨pieces, flat, join_eq, rfl⟩ := shows
  obtain ⟨before, rfl, before_eq⟩ := Statement.exists_eq_append_map_char join_eq noClosing
  rw [List.forall_mem_append] at flat
  refine ⟨before, flat.1, before_eq, ?_⟩
  rw [List.filterMap_append, Form.filterMap_phrase?_map_char, List.append_nil]

/-- The first statement of a text that starts with one. -/
theorem exists_of_opening_append
    (shows : Text.Shows (Statement.opening ++ rest) statements) :
    ∃ statement behind others, statements = statement :: others ∧ statement.interior.IsFlat ∧
      rest = statement.interior ++ Statement.closing ++ behind ∧ behind.Shows others := by
  obtain ⟨pieces, flat, join_eq, rfl⟩ := shows
  match pieces with
  | [] => cases join_eq
  | .char c :: pieces =>
      exact absurd (List.cons.inj join_eq).1 (flat _ List.mem_cons_self).1
  | .phrase statement :: pieces =>
      rw [List.forall_mem_cons] at flat
      refine ⟨statement, Statement.form.join pieces, pieces.filterMap Piece.phrase?, rfl, flat.1,
        ?_, pieces, flat.2, rfl, rfl⟩
      rw [Form.join_cons, Piece.text_phrase] at join_eq
      have whole : Statement.opening ++ (statement.interior ++ Statement.closing ++
          Statement.form.join pieces) = Statement.opening ++ rest := by
        rw [← join_eq]
        simp only [← List.append_assoc]
        rfl
      exact (List.append_cancel_left whole).symm

/-- The last statement of a text that ends with one. -/
theorem exists_of_append_closing
    (shows : Text.Shows (front ++ Statement.closing) statements) :
    ∃ statement before others, statements = others ++ [statement] ∧ statement.interior.IsFlat ∧
      front = before ++ Statement.opening ++ statement.interior ∧ before.Shows others := by
  obtain ⟨pieces, flat, join_eq, rfl⟩ := shows
  rcases List.eq_nil_or_concat pieces with rfl | ⟨pieces, last, rfl⟩
  · cases (List.append_eq_nil_iff.mp join_eq.symm).2
  · rw [List.concat_eq_append, List.forall_mem_append, List.forall_mem_singleton] at flat
    rw [List.concat_eq_append, Form.join_append, Form.join_cons, Form.join_nil,
      List.append_nil] at join_eq
    cases last with
    | char c =>
        have lasts := congrArg List.getLast? join_eq
        rw [Piece.text_char, List.getLast?_append, List.getLast?_append] at lasts
        exact absurd (Option.some.inj lasts) flat.2.2
    | phrase statement =>
        refine ⟨statement, Statement.form.join pieces, pieces.filterMap Piece.phrase?, ?_, flat.2,
          ?_, pieces, flat.1, rfl, rfl⟩
        · rw [List.concat_eq_append, List.filterMap_append]
          rfl
        · have whole : Statement.form.join pieces ++ Statement.opening ++ statement.interior ++
              Statement.closing = front ++ Statement.closing := by
            rw [← join_eq]
            simp only [List.append_assoc]
            rfl
          exact (List.append_cancel_right whole).symm

end Text.Shows
end OutputThreading
