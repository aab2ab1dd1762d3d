import OutputThreading.Comment
import OutputThreading.Proofs.Statement.Shown

/-!
# Erasing comments

A comment is read where it starts, whatever follows it, and its marks hold no delimiter.  So if the
comments of a text are flat, they are found in each of the parts between its delimiters
(`Comment.split_append_cons`), and a well-delimited text without its comments shows its statements
without theirs (`Text.Shows.eraseComments`).
-/

namespace OutputThreading
namespace Comment

/-! ## Reading comments -/

/-- The closing mark of the comment is the first one behind its opening mark. -/
def EndsFirst (comment : Comment) : Prop :=
  ¬closing <:+: comment.body ++ closing.dropLast

theorem read?_eq_some_iff {text rest : Text} {comment : Comment} :
    form.read? text = some (comment, rest) ↔ text = comment.text ++ rest ∧ comment.EndsFirst := by
  have nonempty : closing ≠ [] := List.cons_ne_nil _ _
  constructor
  · intro found
    refine ⟨eq_text_append_of_read? found, ?_⟩
    change read? text = _ at found
    simp only [read?, Option.bind_eq_bind, Option.bind_eq_some_iff] at found
    obtain ⟨inside, opened, ⟨body, after⟩, closed, found⟩ := found
    simp only [Option.some.injEq, Prod.mk.injEq] at found
    obtain ⟨rfl, rfl⟩ := found
    exact ((Text.breakOn?_eq_some_iff nonempty).mp closed).2
  · rintro ⟨rfl, first⟩
    have whole : comment.text ++ rest = opening ++ (comment.body ++ closing ++ rest) := by
      simp only [text, List.append_assoc]
    have closed : Text.breakOn? (comment.body ++ closing ++ rest) closing =
        some (comment.body, rest) :=
      (Text.breakOn?_eq_some_iff nonempty).mpr ⟨rfl, first⟩
    change read? _ = _
    rw [whole, read?, Text.after?_append]
    simp only [Option.bind_eq_bind, Option.bind_some, closed]

/-- A comment starts with a slash. -/
theorem read?_cons_eq_none {c : Char} (other : c ≠ '/') (text : Text) :
    form.read? (c :: text) = none := by
  rw [Option.eq_none_iff_forall_ne_some]
  rintro ⟨comment, rest⟩ found
  have whole := form.eq_write_append found
  exact other (List.cons.inj whole).1

/-- What follows has no say in a comment that was read. -/
theorem read?_append
    {text rest : Text}
    {comment : Comment}
    (found : form.read? text = some (comment, rest))
    (more : Text) :
    form.read? (text ++ more) = some (comment, rest ++ more) := by
  obtain ⟨whole, first⟩ := read?_eq_some_iff.mp found
  exact read?_eq_some_iff.mpr ⟨by rw [whole, List.append_assoc], first⟩

theorem read?_eq_none_of_append
    {text more : Text}
    (notFound : form.read? (text ++ more) = none) :
    form.read? text = none := by
  cases found : form.read? text with
  | none => rfl
  | some result =>
      rw [read?_append found] at notFound
      cases notFound

/-- The pieces in front are the split of the text in front. -/
theorem split_join_front
    {text : Text}
    {front behind : List (Piece Comment)}
    (split_eq : form.split text = front ++ behind) :
    form.split (form.join front) = front := by
  induction front generalizing text with
  | nil => exact form.split_nil
  | cons piece front inductionHypothesis =>
      have behindPiece : form.split text = [piece] ++ (front ++ behind) := split_eq
      have rest := inductionHypothesis (form.split_join_of_split_eq_append behindPiece)
      have whole : text = piece.text form.write ++ form.join front ++ form.join behind := by
        rw [← form.join_split text, split_eq, Form.join_append, Form.join_cons]
      cases piece with
      | char c =>
          have notFound := form.read?_eq_none_of_split_eq_cons split_eq
          rw [whole] at notFound
          have split := form.split_cons_of_read?_eq_none (read?_eq_none_of_append notFound)
          exact split.trans (congrArg (.char c :: ·) rest)
      | phrase comment =>
          obtain ⟨_, first⟩ :=
            read?_eq_some_iff.mp (form.read?_eq_some_of_split_eq_cons split_eq)
          have found : form.read? (comment.text ++ form.join front) =
              some (comment, form.join front) := read?_eq_some_iff.mpr ⟨rfl, first⟩
          exact (form.split_of_read? found).trans (congrArg (.phrase comment :: ·) rest)

/-- A text comes apart where no comment reaches from one part into the other. -/
theorem split_append
    {front rest : Text}
    (apart : ∀ comment ∈ form.phrases (front ++ rest), ∀ part, part <:+ comment.text →
      part <+: rest → part = []) :
    form.split (front ++ rest) = form.split front ++ form.split rest := by
  match front with
  | [] => rw [List.nil_append, Form.split_nil, List.nil_append]
  | c :: front =>
      cases found : form.read? (c :: front ++ rest) with
      | none =>
          have alone : form.read? (c :: front) = none := read?_eq_none_of_append found
          rw [List.cons_append] at found apart ⊢
          rw [form.phrases_cons_of_read?_eq_none found] at apart
          rw [form.split_cons_of_read?_eq_none found, form.split_cons_of_read?_eq_none alone,
            split_append apart]
          rfl
      | some result =>
          obtain ⟨comment, behind⟩ := result
          obtain ⟨whole, first⟩ := read?_eq_some_iff.mp found
          rw [form.phrases_of_read? found] at apart
          -- the comment ends in front of the other part
          obtain ⟨between, front_eq, behind_eq⟩ : ∃ between,
              c :: front = comment.text ++ between ∧ behind = between ++ rest := by
            rcases List.append_eq_append_iff.mp whole with
              ⟨part, text_eq, rest_eq⟩ | ⟨between, front_eq, behind_eq⟩
            · have empty : part = [] :=
                apart comment List.mem_cons_self part ⟨_, text_eq.symm⟩ ⟨_, rest_eq.symm⟩
              subst empty
              exact ⟨[], by rw [text_eq, List.append_nil, List.append_nil], rest_eq.symm⟩
            · exact ⟨between, front_eq, behind_eq⟩
          have alone : form.read? (c :: front) = some (comment, between) :=
            read?_eq_some_iff.mpr ⟨front_eq, first⟩
          have shorter := form.length_lt_of_read? alone
          rw [behind_eq] at found apart
          rw [form.split_of_read? found, form.split_of_read? alone,
            split_append fun other member => apart other (List.mem_cons_of_mem _ member)]
          rfl
termination_by front.length
decreasing_by
  · simp
  · exact shorter

theorem getLast?_text (comment : Comment) : comment.text.getLast? = some '/' := by
  rw [text, List.getLast?_append]
  rfl

/-- No comment reaches into text without slashes. -/
theorem split_append_of_notMem
    {rest : Text}
    (noSlash : '/' ∉ rest)
    (front : Text) :
    form.split (front ++ rest) = form.split front ++ form.split rest := by
  refine split_append fun comment _ part suffix leading => ?_
  rcases List.eq_nil_or_concat part with rfl | ⟨before, c, rfl⟩
  · rfl
  · exfalso
    obtain ⟨before', text_eq⟩ := suffix
    have last := comment.getLast?_text
    rw [← text_eq, List.concat_eq_append, ← List.append_assoc, List.getLast?_concat] at last
    rw [Option.some.inj last] at leading
    exact noSlash (leading.subset (by simp))

theorem skips_of_notMem {front : Text} (noSlash : '/' ∉ front) (rest : Text) :
    form.Skips front rest := by
  refine Form.Skips.of_forall_mem (fun c member => read?_cons_eq_none ?_) rest
  rintro rfl
  exact noSlash member

theorem split_eq_of_notMem {text : Text} (noSlash : '/' ∉ text) :
    form.split text = text.map .char :=
  (skips_of_notMem noSlash []).split_eq

end Comment

/-! ## Flat comments -/

namespace Text

/-- The comments of the text hold no delimiter. -/
def HasFlatComments (text : Text) : Prop :=
  ∀ comment ∈ Comment.form.phrases text, comment.body.IsFlat

instance (text : Text) : Decidable text.HasFlatComments :=
  List.decidableBAll _ _

theorem mem_of_mem_eraseComments
    {text : Text}
    {c : Char}
    (member : c ∈ text.eraseComments) :
    c ∈ text := by
  obtain ⟨piece, isPiece, inside⟩ := List.mem_flatMap.mp member
  rw [← Comment.form.join_split text]
  refine List.mem_flatMap.mpr ⟨piece, isPiece, ?_⟩
  cases piece with
  | char d => exact inside
  | phrase comment =>
      have inBody : c ∈ comment.body := (List.mem_filter.mp inside).1
      change c ∈ Comment.opening ++ comment.body ++ Comment.closing
      simp [inBody]

theorem eraseComments_eq_self
    {text : Text}
    (none : Comment.form.phrases text = []) :
    text.eraseComments = text := by
  have split := Comment.form.eq_map_char_of_filterMap_eq_nil none
  rw [Form.join_split] at split
  rw [eraseComments, Form.replace, split, Form.flatMap_text_map_char]

/-- Comments stand between parts of a text without slashes. -/
theorem eraseComments_append_append
    {before behind : Text}
    (noSlashBefore : '/' ∉ before)
    (noSlashBehind : '/' ∉ behind)
    (text : Text) :
    eraseComments (before ++ (text ++ behind)) = before ++ (text.eraseComments ++ behind) ∧
      Comment.form.phrases (before ++ (text ++ behind)) = Comment.form.phrases text := by
  have split : Comment.form.split (before ++ (text ++ behind)) =
      before.map .char ++ (Comment.form.split text ++ behind.map .char) := by
    rw [Comment.form.split_append_of_skips (Comment.skips_of_notMem noSlashBefore _),
      Comment.split_append_of_notMem noSlashBehind, Comment.split_eq_of_notMem noSlashBehind]
  constructor
  · rw [eraseComments, Form.replace, split, List.flatMap_append, List.flatMap_append,
      Form.flatMap_text_map_char, Form.flatMap_text_map_char]
    rfl
  · rw [Form.phrases, split, List.filterMap_append, List.filterMap_append,
      Form.filterMap_phrase?_map_char, Form.filterMap_phrase?_map_char, List.nil_append,
      List.append_nil]
    rfl

theorem eraseComments_of_notMem {text : Text} (noSlash : '/' ∉ text) : text.eraseComments = text := by
  apply eraseComments_eq_self
  rw [Form.phrases, Comment.split_eq_of_notMem noSlash, Form.filterMap_phrase?_map_char]

/-- The comments of a text are found in front of a delimiter and behind it. -/
theorem HasFlatComments.split_append_cons
    {front rest : Text}
    {c : Char}
    (flat : HasFlatComments (front ++ c :: rest))
    (delimiter : Character.delimits c = true) :
    Comment.form.split (front ++ c :: rest) =
      Comment.form.split front ++ .char c :: Comment.form.split rest := by
  have other : c ≠ '/' := by
    rintro rfl
    exact absurd delimiter (by decide)
  rw [Comment.split_append, Comment.form.split_cons_of_read?_eq_none
    (Comment.read?_cons_eq_none other rest)]
  intro comment member part suffix leading
  have flatText : comment.text.IsFlat := by
    rw [Comment.text, isFlat_append_iff, isFlat_append_iff]
    exact ⟨⟨by decide, flat comment member⟩, by decide⟩
  cases part with
  | nil => rfl
  | cons d part =>
      obtain ⟨behind, equal⟩ := leading
      rw [(List.cons.inj equal).1] at suffix
      exact absurd (suffix.subset List.mem_cons_self) (flatText.notMem delimiter)

/-- Both parts of a text at a delimiter have flat comments and are rid of them separately. -/
theorem HasFlatComments.of_append_cons
    {front rest : Text}
    {c : Char}
    (flat : HasFlatComments (front ++ c :: rest))
    (delimiter : Character.delimits c = true) :
    front.HasFlatComments ∧ rest.HasFlatComments ∧
      eraseComments (front ++ c :: rest) = front.eraseComments ++ c :: rest.eraseComments := by
  have split := flat.split_append_cons delimiter
  have phrases : Comment.form.phrases (front ++ c :: rest) =
      Comment.form.phrases front ++ Comment.form.phrases rest := by
    rw [Form.phrases, split, List.filterMap_append, List.filterMap_cons_none (Piece.phrase?_char c)]
    rfl
  unfold HasFlatComments at flat
  rw [phrases, List.forall_mem_append] at flat
  refine ⟨flat.1, flat.2, ?_⟩
  rw [eraseComments, Form.replace, split, List.flatMap_append, List.flatMap_cons]
  rfl

theorem HasFlatComments.of_cons
    {rest : Text}
    {c : Char}
    (flat : HasFlatComments (c :: rest))
    (delimiter : Character.delimits c = true) :
    rest.HasFlatComments ∧ eraseComments (c :: rest) = c :: rest.eraseComments := by
  have behind : HasFlatComments ([] ++ c :: rest) := flat
  obtain ⟨_, flatRest, erased⟩ := behind.of_append_cons delimiter
  rw [eraseComments_eq_self (Form.phrases_nil Comment.form)] at erased
  exact ⟨flatRest, erased⟩

end Text

/-! ## Statements without comments -/

/-- The statement without the comments in it. -/
def Statement.withoutComments (statement : Statement) : Statement where
  interior := statement.interior.eraseComments

theorem Text.IsFlat.eraseComments {text : Text} (flat : text.IsFlat) : text.eraseComments.IsFlat :=
  fun c member => flat c (mem_of_mem_eraseComments member)

namespace Statement

/-- Erasing the comments of a statement and of what stands around it. -/
theorem eraseComments_append_text_append
    {statement : Statement}
    {front rest : Text}
    (flat : Text.HasFlatComments (front ++ (statement.text ++ rest))) :
    rest.HasFlatComments ∧
      Text.eraseComments (front ++ (statement.text ++ rest)) =
        front.eraseComments ++ (statement.withoutComments.text ++ rest.eraseComments) := by
  have opens : Character.delimits '{' = true := by decide
  have closes : Character.delimits '}' = true := by decide
  rw [text_append] at flat
  obtain ⟨_, flat, first⟩ := flat.of_append_cons opens
  obtain ⟨flat, second⟩ := flat.of_cons opens
  obtain ⟨_, flat, interior⟩ := flat.of_append_cons closes
  obtain ⟨flat, last⟩ := flat.of_cons closes
  refine ⟨flat, ?_⟩
  rw [text_append, first, second, interior, last, text_append]
  rfl

end Statement

/-- A well-delimited text without its flat comments shows its statements without theirs. -/
theorem Text.Shows.eraseComments
    {text : Text}
    {statements : List Statement}
    (shows : text.Shows statements)
    (flat : text.HasFlatComments) :
    text.eraseComments.Shows (statements.map Statement.withoutComments) := by
  obtain ⟨pieces, flatPieces, rfl, rfl⟩ := shows
  -- the characters in front of the next statement are gathered, since a comment may be among them
  suffices gathered : ∀ front : Text, '{' ∉ front → '}' ∉ front →
      Text.HasFlatComments (front ++ Statement.form.join pieces) →
        Text.Shows (Text.eraseComments (front ++ Statement.form.join pieces))
          ((pieces.filterMap Piece.phrase?).map Statement.withoutComments) from
    gathered [] (by simp) (by simp) flat
  clear flat
  induction pieces with
  | nil =>
      intro front noOpening noClosing flat
      rw [Form.join_nil, List.append_nil]
      exact .of_notMem (fun member => noOpening (mem_of_mem_eraseComments member))
        fun member => noClosing (mem_of_mem_eraseComments member)
  | cons piece pieces inductionHypothesis =>
      intro front noOpening noClosing flat
      rw [List.forall_mem_cons] at flatPieces
      cases piece with
      | char c =>
          have others := inductionHypothesis flatPieces.2 (front ++ [c])
          rw [List.append_assoc] at others
          exact others (by simp [noOpening, flatPieces.1.1.symm])
            (by simp [noClosing, flatPieces.1.2.symm]) flat
      | phrase statement =>
          obtain ⟨flatRest, erased⟩ := Statement.eraseComments_append_text_append flat
          have others := inductionHypothesis flatPieces.2 [] (by simp) (by simp) flatRest
          have own : statement.withoutComments.text.Shows [statement.withoutComments] :=
            .of_statement (Text.IsFlat.eraseComments flatPieces.1)
          have blank : front.eraseComments.Shows [] :=
            .of_notMem (fun member => noOpening (mem_of_mem_eraseComments member))
              fun member => noClosing (mem_of_mem_eraseComments member)
          rw [Form.join_cons, Piece.text_phrase]
          exact erased ▸ blank.append (own.append others)

end OutputThreading
