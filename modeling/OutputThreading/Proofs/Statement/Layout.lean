import OutputThreading.Proofs.Statement.Reading

/-!
# Statements on lines

Generated statements are laid out one behind the other with a line break in between, and reading the
text gives them back (`Statement.split_intercalate_append`).  A statement does not go over the end of
its line, so whether one starts at opening braces depends on the rest of that line alone
(`Statement.read?_opened_eq_none_iff`).
-/

namespace OutputThreading
namespace Statement

/-! ## Several statements in a row -/

/-- The pieces that are read of a generated statement. -/
def pieces (statement : Statement) : List (Piece Statement) :=
  .phrase statement.asRead :: statement.leftOver.map .char

/-- The pieces that are read of generated statements with `spacing` between them. -/
def laidOut (spacing : Text) : List Statement → List (Piece Statement)
  | [] => []
  | [statement] => statement.pieces
  | statement :: next :: others =>
      statement.pieces ++ (spacing.map .char ++ laidOut spacing (next :: others))

theorem join_pieces (statement : Statement) : form.join statement.pieces = statement.text := by
  have chars : form.join (statement.leftOver.map .char) = statement.leftOver :=
    Form.flatMap_text_map_char form.write statement.leftOver
  rw [pieces, Form.join_cons, chars]
  exact statement.text_asRead_append_leftOver

theorem join_laidOut (spacing : Text) (statements : List Statement) :
    form.join (laidOut spacing statements) =
      List.intercalate spacing (statements.map text) := by
  induction statements with
  | nil => rfl
  | cons statement others inductionHypothesis =>
      cases others with
      | nil => simp [laidOut, join_pieces]
      | cons next others =>
          have chars : form.join (spacing.map .char) = spacing :=
            Form.flatMap_text_map_char form.write spacing
          rw [laidOut, Form.join_append, Form.join_append, join_pieces, chars, inductionHypothesis,
            List.map_cons, List.map_cons, List.map_cons, List.intercalate_cons_cons]
          simp

@[simp] theorem filterMap_phrase?_pieces (statement : Statement) :
    statement.pieces.filterMap Piece.phrase? = [statement.asRead] := by
  simp [pieces]

theorem filterMap_phrase?_laidOut (spacing : Text) (statements : List Statement) :
    (laidOut spacing statements).filterMap Piece.phrase? = statements.map asRead := by
  induction statements with
  | nil => rfl
  | cons statement others inductionHypothesis =>
      cases others with
      | nil => simp [laidOut]
      | cons next others => simp [laidOut, inductionHypothesis]

/-- The statement is read back from its text up to its closing braces. -/
structure IsReadable (statement : Statement) : Prop where
  /-- No closing braces stand in the interior. -/
  holdsNoClosing : statement.HoldsNoClosing
  /-- The interior is on one line. -/
  newline_notMem : '\n' ∉ statement.interior

/-- Statements that are laid out are read one after the other. -/
theorem split_intercalate_append
    {statements : List Statement}
    (readable : ∀ statement ∈ statements, statement.IsReadable)
    {spacing : Text}
    (noBrace : '{' ∉ spacing)
    (rest : Text) :
    form.split (List.intercalate spacing (statements.map text) ++ rest) =
      laidOut spacing statements ++ form.split rest := by
  induction statements with
  | nil => rfl
  | cons statement others inductionHypothesis =>
      have first := readable statement List.mem_cons_self
      have behind (tail : Text) : form.split (statement.text ++ tail) =
          statement.pieces ++ form.split tail := by
        rw [split_text_append first.holdsNoClosing first.newline_notMem, pieces, List.cons_append]
      cases others with
      | nil =>
          rw [List.map_cons, List.map_nil, List.intercalate_singleton, behind]
          rfl
      | cons next others =>
          have skips (tail : Text) : form.Skips spacing tail := by
            refine Form.Skips.of_forall_mem (fun c member text => ?_) tail
            exact read?_cons_of_ne (fun equal => noBrace (equal ▸ member)) text
          have later := inductionHypothesis fun statement member =>
            readable statement (List.mem_cons_of_mem _ member)
          rw [List.map_cons, List.map_cons, List.intercalate_cons_cons, ← List.map_cons,
            List.append_assoc, List.append_assoc, behind, form.split_append_of_skips (skips _),
            later, laidOut]
          simp

/-! ## Statements and the ends of lines -/

/-- A statement starts at opening braces exactly if closing braces follow on the same line. -/
theorem read?_opened_eq_none_iff (inside : Text) :
    read? ('{' :: '{' :: inside) = none ↔ ¬closing <:+: inside.takeWhile (· ≠ '\n') := by
  have opened : Text.after? ('{' :: '{' :: inside) opening = some inside := by
    simp [opening]
  cases broken : inside.breakOn? closing with
  | none =>
      have absent := Text.breakOn?_eq_none_iff.mp broken
      have notRead : read? ('{' :: '{' :: inside) = none := by
        simp [read?, opened, broken]
      simp only [notRead, true_iff]
      intro onLine
      exact absent (onLine.trans (List.takeWhile_prefix _).isInfix)
  | some parts =>
      obtain ⟨interior, rest⟩ := parts
      have whole := Text.eq_append_of_breakOn? broken
      have first := Text.not_infix_of_breakOn? closing_ne_nil broken
      have isRead : read? ('{' :: '{' :: inside) =
          if '\n' ∈ interior then none else some (⟨interior⟩, rest) := by
        simp [read?, opened, broken]
      rw [isRead]
      split
      next newline =>
        obtain ⟨line, others, rfl, onLine⟩ := List.eq_append_cons_of_mem newline
        have upTo : inside.takeWhile (· ≠ '\n') = line := by
          rw [whole, List.append_assoc, List.append_assoc, List.cons_append,
            List.takeWhile_append_of_pos, List.takeWhile_cons_of_neg (by simp), List.append_nil]
          intro c member
          simp only [decide_eq_true_eq]
          rintro rfl
          exact onLine member
        rw [upTo]
        simp only [true_iff]
        intro closes
        refine first (closes.trans ⟨[], '\n' :: others ++ closing.dropLast, ?_⟩)
        simp
      next inline =>
        have upTo : closing <:+: inside.takeWhile (· ≠ '\n') := by
          rw [whole, List.takeWhile_append_of_pos]
          · exact ⟨interior, rest.takeWhile (· ≠ '\n'), rfl⟩
          · intro c member
            simp only [decide_eq_true_eq]
            rintro rfl
            rcases List.mem_append.mp member with member | member
            · exact inline member
            · exact absurd member (by decide)
        exact iff_of_false (Option.some_ne_none _) (not_not_intro upTo)

/-- The statement that was read and its braces are part of the first line. -/
theorem closing_infix_line_of_read?
    {text rest : Text}
    {statement : Statement}
    (found : read? text = some (statement, rest)) :
    closing <:+: text.takeWhile (· ≠ '\n') := by
  have inline := newline_notMem_interior_of_read? found
  rw [eq_text_append_of_read? found, List.takeWhile_append_of_pos]
  · exact ⟨opening ++ statement.interior, rest.takeWhile (· ≠ '\n'), rfl⟩
  · intro c member
    simp only [decide_eq_true_eq]
    rintro rfl
    rw [text_eq] at member
    simp [inline] at member

/-- Replacing statements keeps a line without closing braces. -/
theorem takeWhile_replaceInLineFrom
    (replacement : Text → Statement → Text)
    (text line : Text)
    (absent : ¬closing <:+: text.takeWhile (· ≠ '\n')) :
    (form.replaceInLineFrom replacement line (form.split text)).takeWhile (· ≠ '\n') =
      text.takeWhile (· ≠ '\n') := by
  fun_induction form.split text generalizing line with
  | case1 => rfl
  | case2 c tail statement rest found inductionHypothesis =>
      exact absurd (closing_infix_line_of_read? found) absent
  | case3 c tail notFound inductionHypothesis =>
      rw [Form.replaceInLineFrom]
      by_cases newline : c = '\n'
      · simp [newline]
      · rw [List.takeWhile_cons_of_pos (by simpa using newline)] at absent ⊢
        rw [List.takeWhile_cons_of_pos (by simpa using newline),
          inductionHypothesis _ fun inside => absent (List.infix_cons inside)]

/-- Where no statement starts, none does when statements behind that place are replaced. -/
theorem read?_cons_replaceInLineFrom
    (replacement : Text → Statement → Text)
    {c : Char}
    {tail : Text}
    (notFound : read? (c :: tail) = none)
    (line : Text) :
    read? (c :: form.replaceInLineFrom replacement line (form.split tail)) = none := by
  by_cases brace : c = '{'
  · subst brace
    cases tail with
    | nil => simpa [Form.replaceInLineFrom] using notFound
    | cons d inside =>
        by_cases second : d = '{'
        · subst second
          have absent := (read?_opened_eq_none_iff inside).mp notFound
          have kept := takeWhile_replaceInLineFrom replacement ('{' :: inside) line (by
            rw [List.takeWhile_cons_of_pos (by decide), List.infix_cons_iff]
            simpa [closing] using absent)
          rw [List.takeWhile_cons_of_pos (by decide)] at kept
          generalize form.replaceInLineFrom replacement line (form.split ('{' :: inside)) = replaced
            at kept
          cases replaced with
          | nil => cases kept
          | cons e others =>
              by_cases onLine : e = '\n'
              · simp [onLine] at kept
              · rw [List.takeWhile_cons_of_pos (by simpa using onLine)] at kept
                obtain ⟨rfl, others_eq⟩ := List.cons.inj kept
                rw [read?_opened_eq_none_iff, others_eq]
                exact absent
        · have skipped : form.read? (d :: inside) = none := read?_cons_of_ne second inside
          rw [form.split_cons_of_read?_eq_none skipped, Form.replaceInLineFrom]
          simp [read?, opening, Text.after?_cons_of_ne second]
  · exact read?_cons_of_ne brace _

end Statement
end OutputThreading
