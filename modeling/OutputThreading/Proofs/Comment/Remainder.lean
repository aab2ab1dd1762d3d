import OutputThreading.Proofs.Comment

/-!
# What is left without comments

Erasing comments is one pass from left to right, and what stood on both sides of a comment stands
side by side afterwards.  Nothing else makes a comment of what is left: a slash and a star must have
been kept apart by comments without line breaks, with a closing mark behind them
(`Text.exists_comment_eraseComments_iff`).  Then erasing once more takes that comment away, too.
-/

namespace OutputThreading
namespace Comment

/-! ## Texts that hold a comment -/

/-- An opening mark starts a comment if there is a closing mark behind it. -/
theorem read?_opening_append_eq_none_iff {inside : Text} :
    form.read? (opening ++ inside) = none ↔ ¬closing <:+: inside := by
  have read_eq : form.read? (opening ++ inside) =
      (inside.breakOn? closing).map fun found => (⟨found.1⟩, found.2) := by
    change read? (opening ++ inside) = _
    simp only [read?, Text.after?_append, Option.bind_eq_bind, Option.bind_some]
    cases inside.breakOn? closing <;> rfl
  rw [read_eq, Option.map_eq_none_iff, Text.breakOn?_eq_none_iff]

/-- The comments of a text are found exactly if there are any. -/
theorem phrases_eq_nil_iff {text : Text} :
    form.phrases text = [] ↔ ∀ comment : Comment, ¬comment.text <:+: text := by
  constructor
  · rintro none comment ⟨before, behind, rfl⟩
    have chars := form.eq_map_char_of_filterMap_eq_nil none
    rw [Form.join_split, List.append_assoc, List.map_append] at chars
    have split := form.split_join_of_split_eq_append chars
    have start : form.join ((comment.text ++ behind).map .char) =
        opening ++ (comment.body ++ (closing ++ behind)) := by
      rw [Form.join, Form.flatMap_text_map_char, text]
      simp only [List.append_assoc]
    rw [start] at split
    have notFound := form.read?_eq_none_of_split_eq_cons split
    exact read?_opening_append_eq_none_iff.mp notFound ⟨comment.body, behind, by simp⟩
  · intro absent
    rw [List.eq_nil_iff_forall_not_mem]
    intro comment member
    have inside := form.write_infix_join (Form.mem_filterMap_phrase?.mp member)
    rw [Form.join_split] at inside
    exact absent comment inside

/-! ## The remainder of the pieces -/

/-- What is left of the pieces of a text when its comments are erased. -/
def remainder (pieces : List (Piece Comment)) : Text :=
  pieces.flatMap (Piece.text lineBreaks)

/-- A character that is left and ends no line stood outside of comments. -/
theorem exists_char_of_remainder_eq
    {pieces : List (Piece Comment)}
    {before behind : Text}
    {c : Char}
    (other : c ≠ '\n')
    (whole : remainder pieces = before ++ c :: behind) :
    ∃ front rear, pieces = front ++ .char c :: rear ∧
      remainder front = before ∧ remainder rear = behind := by
  induction pieces generalizing before with
  | nil => simp [remainder] at whole
  | cons piece pieces inductionHypothesis =>
      rw [remainder, List.flatMap_cons, ← remainder] at whole
      cases piece with
      | char d =>
          cases before with
          | nil =>
              obtain ⟨rfl, rest⟩ := List.cons.inj whole
              exact ⟨[], pieces, rfl, rfl, rest⟩
          | cons b before =>
              obtain ⟨rfl, rest⟩ := List.cons.inj whole
              obtain ⟨front, rear, rfl, rfl, rfl⟩ := inductionHypothesis rest
              exact ⟨.char d :: front, rear, rfl, rfl, rfl⟩
      | phrase comment =>
          have foreign : c ∉ comment.lineBreaks :=
            fun member => other (of_decide_eq_true (List.mem_filter.mp member).2)
          obtain ⟨between, rfl, rest⟩ := Text.exists_of_append_eq_append_cons foreign whole
          obtain ⟨front, rear, rfl, rfl, rfl⟩ := inductionHypothesis rest
          exact ⟨.phrase comment :: front, rear, rfl, rfl, rfl⟩

/-- Nothing is left of comments without line breaks, and of nothing else. -/
theorem remainder_eq_nil_iff {pieces : List (Piece Comment)} :
    remainder pieces = [] ↔
      ∃ comments : List Comment, pieces = comments.map .phrase ∧
        ∀ comment ∈ comments, comment.lineBreaks = [] := by
  constructor
  · intro empty
    rw [remainder, List.flatMap_eq_nil_iff] at empty
    induction pieces with
    | nil => exact ⟨[], rfl, by simp⟩
    | cons piece pieces inductionHypothesis =>
        rw [List.forall_mem_cons] at empty
        obtain ⟨comments, rfl, inline⟩ := inductionHypothesis empty.2
        cases piece with
        | char c => cases empty.1
        | phrase comment =>
            exact ⟨comment :: comments, rfl, List.forall_mem_cons.mpr ⟨empty.1, inline⟩⟩
  · rintro ⟨comments, rfl, inline⟩
    rw [remainder, List.flatMap_eq_nil_iff, List.forall_mem_map]
    exact inline

/-- A closing mark that is left over had one in its place. -/
theorem closing_infix_join_of_remainder
    {pieces : List (Piece Comment)}
    (closed : closing <:+: remainder pieces) :
    closing <:+: form.join pieces := by
  cases phrases : pieces.filterMap Piece.phrase? with
  | nil =>
      have chars := form.eq_map_char_of_filterMap_eq_nil phrases
      rw [remainder, chars, Form.flatMap_text_map_char] at closed
      exact closed
  | cons comment comments =>
      have member : .phrase comment ∈ pieces := Form.mem_filterMap_phrase?.mp (by simp [phrases])
      have own : closing <:+: comment.text := ⟨opening ++ comment.body, [], by simp [text]⟩
      exact own.trans (form.write_infix_join member)

/-- Every comment is written with more characters than are left of it. -/
theorem length_remainder_add_le (pieces : List (Piece Comment)) :
    (remainder pieces).length + (pieces.filterMap Piece.phrase?).length ≤
      (form.join pieces).length := by
  induction pieces with
  | nil => simp [remainder]
  | cons piece pieces inductionHypothesis =>
      rw [remainder, List.flatMap_cons, ← remainder, List.length_append, Form.join_cons,
        List.length_append]
      cases piece with
      | char c =>
          rw [List.filterMap_cons_none (Piece.phrase?_char c), Piece.text_char, Piece.text_char]
          omega
      | phrase comment =>
          have shorter : comment.lineBreaks.length ≤ comment.body.length := List.length_filter_le ..
          have written : (form.write comment).length = comment.body.length + 4 := by
            show comment.text.length = _
            simp [text, opening, closing]
          rw [List.filterMap_cons_some (Piece.phrase?_phrase comment), List.length_cons,
            Piece.text_phrase, Piece.text_phrase, written]
          omega

end Comment

/-! ## Comments in what is left -/

namespace Text

/-- A slash and a star outside of comments are kept apart by comments without line breaks, and a
closing mark is left somewhere behind them. -/
def JoinsComment (text : Text) : Prop :=
  ∃ (front : List (Piece Comment)) (comments : List Comment) (rear : List (Piece Comment)),
    Comment.form.split text =
      front ++ .char '/' :: (comments.map .phrase ++ .char '*' :: rear) ∧
    comments ≠ [] ∧ (∀ comment ∈ comments, comment.lineBreaks = []) ∧
    Comment.closing <:+: Comment.remainder rear

/-- Erasing comments leaves a comment exactly if it puts an opening mark together. -/
theorem exists_comment_eraseComments_iff {text : Text} :
    (∃ comment : Comment, comment.text <:+: text.eraseComments) ↔ text.JoinsComment := by
  constructor
  · rintro ⟨⟨body⟩, before, behind, whole⟩
    have marks : Comment.remainder (Comment.form.split text) =
        before ++ '/' :: ([] ++ '*' :: (body ++ Comment.closing ++ behind)) := by
      change text.eraseComments = _
      rw [← whole]
      simp [Comment.text, Comment.opening]
    obtain ⟨front, between, split_eq, rfl, rest⟩ :=
      Comment.exists_char_of_remainder_eq (by decide) marks
    obtain ⟨separating, rear, rfl, empty, rear_eq⟩ :=
      Comment.exists_char_of_remainder_eq (by decide) rest
    obtain ⟨comments, rfl, inline⟩ := Comment.remainder_eq_nil_iff.mp empty
    have closed : Comment.closing <:+: Comment.remainder rear := ⟨body, behind, rear_eq.symm⟩
    refine ⟨front, comments, rear, split_eq, ?_, inline, closed⟩
    rintro rfl
    -- side by side they would have opened a comment in the first place
    have notFound := Comment.form.read?_eq_none_of_split_eq_cons
      (Comment.form.split_join_of_split_eq_append split_eq)
    exact Comment.read?_opening_append_eq_none_iff.mp notFound
      (Comment.closing_infix_join_of_remainder closed)
  · rintro ⟨front, comments, rear, split_eq, _, inline, body, behind, rear_eq⟩
    have silent := Comment.remainder_eq_nil_iff.mpr ⟨comments, rfl, inline⟩
    have left : text.eraseComments =
        Comment.remainder front ++ '/' :: (Comment.remainder (comments.map .phrase) ++
          '*' :: Comment.remainder rear) := by
      rw [eraseComments, Form.replace, split_eq]
      simp only [List.flatMap_append, List.flatMap_cons]
      rfl
    refine ⟨⟨body⟩, Comment.remainder front, behind, ?_⟩
    rw [left, silent, ← rear_eq]
    simp [Comment.text, Comment.opening]

theorem length_eraseComments_add_le (text : Text) :
    text.eraseComments.length + (Comment.form.phrases text).length ≤ text.length := by
  have shorter := Comment.length_remainder_add_le (Comment.form.split text)
  rwa [Form.join_split] at shorter

/-- Only a text without comments is the same without its comments. -/
theorem eraseComments_eq_self_iff {text : Text} :
    text.eraseComments = text ↔ ∀ comment : Comment, ¬comment.text <:+: text := by
  rw [← Comment.phrases_eq_nil_iff]
  refine ⟨fun same => ?_, eraseComments_eq_self⟩
  have shorter := text.length_eraseComments_add_le
  rw [same] at shorter
  rw [← List.length_eq_zero_iff]
  omega

/-- Erasing the comments of a text leaves no comment and is idempotent, exactly unless it joins the
opening mark of a new comment. -/
theorem eraseComments_leaves_comment_iff (text : Text) :
    ((∃ comment : Comment, comment.text <:+: text.eraseComments) ↔ text.JoinsComment) ∧
      (text.eraseComments.eraseComments = text.eraseComments ↔ ¬text.JoinsComment) := by
  refine ⟨exists_comment_eraseComments_iff, ?_⟩
  rw [eraseComments_eq_self_iff, ← exists_comment_eraseComments_iff, not_exists]

/-- The comment between the first slash and the first star leaves another one. -/
theorem eraseComments_leaves_comment :
    ¬∀ text : Text, (∀ comment : Comment, ¬comment.text <:+: text.eraseComments) ∧
      text.eraseComments.eraseComments = text.eraseComments := by
  intro clean
  exact absurd (clean "//**/* x */".toList).2 (by decide +kernel)

end Text
end OutputThreading
