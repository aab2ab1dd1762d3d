import OutputThreading.Proofs.Statement.Reading
import OutputThreading.Proofs.Text.Flat

/-!
# Delimited statements

In a text whose statements do not nest, opening braces stand at the starts of statements only.  All
forms that start with opening braces and end inside of their statement can then be read statement by
statement (`Form.IsBraced.split_join`).
-/

namespace OutputThreading
namespace Statement

/-- No opening braces stand in the interior or overlap with those of the statement. -/
def OpensOnce (statement : Statement) : Prop :=
  ¬opening <:+: '{' :: statement.interior

/-- The braces of the statement are its only ones. -/
structure IsPlain (statement : Statement) : Prop where
  /-- The statement holds no further opening braces. -/
  opensOnce : statement.OpensOnce
  /-- The statement holds no further closing braces. -/
  closesOnce : statement.ClosesOnce

/-- The statements among the pieces are plain, and no opening braces stand between them. -/
inductive Delimited : List (Piece Statement) → Prop
  /-- There are no pieces. -/
  | nil : Delimited []
  /-- A brace between the statements is followed by no other. -/
  | char
      {c : Char}
      {pieces : List (Piece Statement)}
      (single : c = '{' → (form.join pieces).head? ≠ some '{')
      (others : Delimited pieces) :
      Delimited (.char c :: pieces)
  /-- A statement is plain. -/
  | phrase
      {statement : Statement}
      {pieces : List (Piece Statement)}
      (plain : statement.IsPlain)
      (others : Delimited pieces) :
      Delimited (.phrase statement :: pieces)

theorem isPlain_of_isFlat {statement : Statement} (flat : statement.interior.IsFlat) :
    statement.IsPlain := by
  constructor
  · have absent : '{' ∉ statement.interior := flat.notMem (by decide)
    intro inside
    have counted := inside.sublist.count_le '{'
    rw [List.count_cons, List.count_eq_zero.mpr absent] at counted
    exact absurd counted (by decide)
  · exact closesOnce_of_notMem (flat.notMem (by decide))

/-- A flat word in front of a text without braces that matter makes a plain statement. -/
theorem isPlain_append
    {word rest : Text}
    (flat : word.IsFlat)
    (nonempty : word ≠ [])
    (opensNone : ¬opening <:+: rest)
    (closesNone : ¬closing <:+: rest ++ ['}']) :
    (Statement.mk (word ++ rest)).IsPlain := by
  constructor
  · intro inside
    have among : opening <:+: ['{'] ++ (word ++ rest) := inside
    rw [flat.infix_iff nonempty (by decide)] at among
    rcases among with short | among
    · exact absurd short (by decide)
    · exact opensNone among
  · intro inside
    have among : closing <:+: [] ++ (word ++ (rest ++ ['}'])) := by
      simpa using inside
    rw [flat.infix_iff nonempty (by decide)] at among
    rcases among with short | among
    · exact absurd short (by decide)
    · exact closesNone among

/-- A piece holds no other delimiters than the braces of a statement, and line breaks outside of
statements. -/
def IsFlatPiece : Piece Statement → Prop
  | .char c => c ≠ '{' ∧ c ≠ '}'
  | .phrase statement => statement.interior.IsFlat

instance : DecidablePred IsFlatPiece
  | .char c => inferInstanceAs (Decidable (c ≠ '{' ∧ c ≠ '}'))
  | .phrase statement => inferInstanceAs (Decidable statement.interior.IsFlat)

theorem delimited_of_isFlatPiece
    {pieces : List (Piece Statement)}
    (flat : ∀ piece ∈ pieces, IsFlatPiece piece) :
    Delimited pieces := by
  induction pieces with
  | nil => exact .nil
  | cons piece pieces inductionHypothesis =>
      have first := flat piece List.mem_cons_self
      have others := inductionHypothesis fun other member => flat other (List.mem_cons_of_mem _ member)
      cases piece with
      | char c => exact .char (fun brace => absurd brace first.1) others
      | phrase statement => exact .phrase (isPlain_of_isFlat first) others

theorem Delimited.append_chars
    {pieces : List (Piece Statement)}
    (delimited : Delimited pieces)
    {text : Text}
    (noBrace : '{' ∉ text) :
    Delimited (text.map .char ++ pieces) := by
  induction text with
  | nil => exact delimited
  | cons c text inductionHypothesis =>
      rw [List.mem_cons, not_or] at noBrace
      exact .char (fun equal => absurd equal.symm noBrace.1) (inductionHypothesis noBrace.2)

/-- Other plain statements may take the place of the statements. -/
theorem Delimited.map
    {f : Statement → Statement}
    (plain : ∀ statement : Statement, statement.IsPlain → (f statement).IsPlain)
    {pieces : List (Piece Statement)}
    (delimited : Delimited pieces) :
    Delimited (pieces.map (Piece.map f)) := by
  induction delimited with
  | nil => exact .nil
  | @char c pieces single others inductionHypothesis =>
      refine .char (fun brace => ?_) inductionHypothesis
      have head : (form.join (pieces.map (Piece.map f))).head? = (form.join pieces).head? := by
        cases pieces with
        | nil => rfl
        | cons piece pieces => cases piece <;> rfl
      rw [head]
      exact single brace
  | phrase first others inductionHypothesis => exact .phrase (plain _ first) inductionHypothesis

theorem Delimited.isPlain_of_mem
    {pieces : List (Piece Statement)}
    (delimited : Delimited pieces)
    {statement : Statement}
    (member : statement ∈ pieces.filterMap Piece.phrase?) :
    statement.IsPlain := by
  induction delimited with
  | nil => cases member
  | char single others inductionHypothesis => exact inductionHypothesis member
  | phrase plain others inductionHypothesis =>
      rcases List.mem_cons.mp member with rfl | member
      · exact plain
      · exact inductionHypothesis member

theorem OpensOnce.asRead {statement : Statement} (opens : statement.OpensOnce) :
    statement.asRead.OpensOnce := by
  rw [Statement.asRead]
  split
  · intro inside
    refine opens (inside.trans (List.prefix_cons_inj '{' |>.mpr ?_).isInfix)
    exact List.dropLast_prefix statement.interior
  · exact opens

end Statement

/-- The text is a sequence of statements without braces and line breaks in them, separated by text
without braces. -/
def Text.WellDelimited (text : Text) : Prop :=
  ∃ pieces, (∀ piece ∈ pieces, Statement.IsFlatPiece piece) ∧ Statement.form.join pieces = text

/-! ## Forms that start with opening braces -/

/-- The phrases of the form start with opening braces, and a phrase that starts with those of a plain
statement depends on that statement alone. -/
structure Form.IsBraced {α : Type} (form : Form α) : Prop where
  /-- Phrases start with opening braces. -/
  opening_prefix :
    ∀ {text rest : Text} {phrase : α}, form.read? text = some (phrase, rest) →
      Statement.opening <+: text
  /-- What is read at the start of a statement does not depend on what follows the statement. -/
  read?_text_append :
    ∀ {statement : Statement}, statement.IsPlain → ∀ rest,
      form.read? (statement.text ++ rest) =
        (form.read? statement.text).map fun (phrase, part) => (phrase, part ++ rest)

namespace Form.IsBraced

variable {α : Type} {form : Form α}

theorem read?_eq_none
    (braced : form.IsBraced)
    {text : Text}
    (absent : ¬Statement.opening <+: text) :
    form.read? text = none := by
  rw [Option.eq_none_iff_forall_ne_some]
  rintro ⟨phrase, rest⟩ found
  exact absent (braced.opening_prefix found)

/-- No phrase starts in a part where no opening braces start. -/
theorem skips
    (braced : form.IsBraced)
    {front rest : Text}
    (absent : ¬Statement.opening <:+: front ++ rest.take 1) :
    form.Skips front rest := by
  intro part suffix nonempty
  refine braced.read?_eq_none fun leading => ?_
  have short : Statement.opening <+: part ++ rest.take 1 := by
    obtain ⟨c, tail, rfl⟩ := List.exists_cons_of_ne_nil nonempty
    rw [List.prefix_iff_eq_take] at leading ⊢
    rw [leading]
    cases tail <;> simp [Statement.opening]
  obtain ⟨before, rfl⟩ := suffix
  exact absent (short.isInfix.trans ⟨before, [], by simp⟩)

/-- No phrase starts inside of a plain statement. -/
theorem skips_of_suffix
    (braced : form.IsBraced)
    {statement : Statement}
    (plain : statement.IsPlain)
    {part : Text}
    (suffix : part <:+ '{' :: (statement.interior ++ Statement.closing))
    (rest : Text) :
    form.Skips part rest := by
  have whole : form.Skips ('{' :: (statement.interior ++ Statement.closing)) rest := by
    refine braced.skips fun inside => ?_
    have parts : '{' :: (statement.interior ++ Statement.closing) ++ rest.take 1 =
        '{' :: statement.interior ++ (Statement.closing ++ rest.take 1) := by
      simp
    have apart : ∀ c ∈ Statement.closing, c ∉ Statement.opening := by
      simp [Statement.closing, Statement.opening]
    rw [parts, Text.infix_append_append_iff (by decide) apart (by decide)] at inside
    rcases inside with inside | inside
    · exact plain.opensOnce inside
    · have short := inside.length_le
      simp only [Statement.opening, List.length_cons, List.length_nil, List.length_take] at short
      omega
  exact fun inner innerSuffix => whole inner (innerSuffix.trans suffix)

theorem split_text_append
    (braced : form.IsBraced)
    {statement : Statement}
    (plain : statement.IsPlain)
    (rest : Text) :
    form.split (statement.text ++ rest) = form.split statement.text ++ form.split rest := by
  have behind := braced.read?_text_append plain
  cases found : form.read? statement.text with
  | none =>
      have skips (other : Text) : form.Skips statement.text other := by
        refine .cons ?_ (braced.skips_of_suffix plain List.suffix_rfl other)
        have notFound := behind other
        rwa [found] at notFound
      have alone := (skips []).split_eq
      rw [form.split_append_of_skips (skips rest), alone]
  | some result =>
      obtain ⟨phrase, part⟩ := result
      have suffix : part <:+ '{' :: (statement.interior ++ Statement.closing) := by
        have written := form.eq_write_append found
        obtain ⟨c, others, write_eq⟩ := List.exists_cons_of_ne_nil (form.write_ne_nil phrase)
        rw [write_eq] at written
        exact ⟨others, (List.cons.inj written).2.symm⟩
      have skips := braced.skips_of_suffix plain suffix
      have foundBehind : form.read? (statement.text ++ rest) = some (phrase, part ++ rest) := by
        rw [behind, found]
        rfl
      have alone := (skips []).split_eq
      rw [form.split_of_read? foundBehind, form.split_of_read? found,
        form.split_append_of_skips (skips rest), alone, List.cons_append]

theorem read?_cons_eq_none
    (braced : form.IsBraced)
    {c : Char}
    {tail : Text}
    (single : c = '{' → tail.head? ≠ some '{') :
    form.read? (c :: tail) = none := by
  refine braced.read?_eq_none ?_
  rintro ⟨rest, equal⟩
  obtain ⟨first, second⟩ := List.cons.inj equal
  refine single first.symm ?_
  rw [← second]
  rfl

/-- No phrase starts where there is no opening brace. -/
theorem skips_of_notMem
    (braced : form.IsBraced)
    {front : Text}
    (noBrace : '{' ∉ front)
    (rest : Text) :
    form.Skips front rest :=
  .of_forall_mem (fun _ member _ => braced.read?_cons_eq_none fun brace =>
    absurd (brace ▸ member) noBrace) rest

theorem split_singleton (braced : form.IsBraced) (c : Char) : form.split [c] = [.char c] := by
  rw [form.split_cons_of_read?_eq_none (braced.read?_cons_eq_none (by simp)), Form.split_nil]

/-- A delimited text is read piece by piece. -/
theorem split_join
    (braced : form.IsBraced)
    {pieces : List (Piece Statement)}
    (delimited : Statement.Delimited pieces) :
    form.split (Statement.form.join pieces) =
      pieces.flatMap fun piece => form.split (piece.text Statement.text) := by
  induction delimited with
  | nil => simp
  | @char c pieces single others inductionHypothesis =>
      rw [Form.join_cons, Piece.text_char, List.singleton_append,
        form.split_cons_of_read?_eq_none (braced.read?_cons_eq_none single), inductionHypothesis,
        List.flatMap_cons, Piece.text_char, braced.split_singleton, List.singleton_append]
  | @phrase statement pieces plain others inductionHypothesis =>
      rw [Form.join_cons, Piece.text_phrase, List.flatMap_cons, ← inductionHypothesis]
      exact braced.split_text_append plain _

/-- The phrases of a delimited text are those of its statements, here at most one for each. -/
theorem phrases_join
    (braced : form.IsBraced)
    {kind? : Statement → Option α}
    (phrases_text : ∀ {statement : Statement}, statement.IsPlain →
      form.phrases statement.text = (kind? statement).toList)
    {pieces : List (Piece Statement)}
    (delimited : Statement.Delimited pieces) :
    form.phrases (Statement.form.join pieces) =
      (pieces.filterMap Piece.phrase?).filterMap kind? := by
  unfold phrases
  rw [braced.split_join delimited]
  induction delimited with
  | nil => rfl
  | @char c pieces single others inductionHypothesis =>
      rw [List.flatMap_cons, List.filterMap_append, inductionHypothesis, Piece.text_char,
        braced.split_singleton]
      rfl
  | @phrase statement pieces plain others inductionHypothesis =>
      have own := phrases_text plain
      unfold phrases at own
      rw [List.flatMap_cons, List.filterMap_append, inductionHypothesis, Piece.text_phrase, own,
        List.filterMap_cons_some (Piece.phrase?_phrase statement)]
      simp only [List.filterMap_cons]
      cases kind? statement <;> rfl

/-- Replacing in a delimited text replaces in each of its statements. -/
theorem replace_join
    (braced : form.IsBraced)
    (replacement : α → Text)
    {pieces : List (Piece Statement)}
    (delimited : Statement.Delimited pieces) :
    form.replace replacement (Statement.form.join pieces) =
      pieces.flatMap (Piece.text fun statement => form.replace replacement statement.text) := by
  rw [replace, braced.split_join delimited, List.flatMap_assoc]
  congr 1
  funext piece
  cases piece with
  | char c => simp [braced.split_singleton]
  | phrase statement => rfl

end Form.IsBraced

/-! ## Forms whose phrases are statements -/

/-- The phrases of the form are plain statements of one kind. -/
structure Form.IsKind {α : Type} (form : Form α) (kind? : Statement → Option α) : Prop where
  /-- Phrases start with opening braces. -/
  opening_prefix : ∀ phrase, Statement.opening <+: form.write phrase
  /-- A statement of the kind is read whole. -/
  read?_text_append :
    ∀ {statement : Statement}, statement.IsPlain → ∀ rest,
      form.read? (statement.text ++ rest) = (kind? statement).map fun phrase => (phrase, rest)

namespace Form.IsKind

variable {α : Type} {form : Form α} {kind? : Statement → Option α}

theorem read?_text
    (isKind : form.IsKind kind?)
    {statement : Statement}
    (plain : statement.IsPlain) :
    form.read? statement.text = (kind? statement).map fun phrase => (phrase, []) := by
  rw [← isKind.read?_text_append plain, List.append_nil]

theorem isBraced (isKind : form.IsKind kind?) : form.IsBraced where
  opening_prefix {text rest phrase} found := by
    rw [form.eq_write_append found]
    exact (isKind.opening_prefix phrase).trans (List.prefix_append _ rest)
  read?_text_append {statement} plain rest := by
    rw [isKind.read?_text_append plain, isKind.read?_text plain]
    cases kind? statement <;> rfl

theorem split_text
    (isKind : form.IsKind kind?)
    {statement : Statement}
    (plain : statement.IsPlain) :
    form.split statement.text =
      (kind? statement).elim (statement.text.map .char) fun phrase => [.phrase phrase] := by
  have found := isKind.read?_text plain
  cases kind : kind? statement with
  | none =>
      rw [kind] at found
      have skips : form.Skips statement.text [] := by
        refine .cons ?_ (isKind.isBraced.skips_of_suffix plain List.suffix_rfl [])
        rwa [List.append_nil]
      exact skips.split_eq
  | some phrase =>
      rw [kind] at found
      rw [form.split_of_read? found, Form.split_nil]
      rfl

theorem phrases_text
    (isKind : form.IsKind kind?)
    {statement : Statement}
    (plain : statement.IsPlain) :
    form.phrases statement.text = (kind? statement).toList := by
  rw [phrases, isKind.split_text plain]
  cases kind? statement with
  | none => exact filterMap_phrase?_map_char statement.text
  | some phrase => rfl

/-- The phrases of a delimited text are its statements of the kind. -/
theorem phrases_join
    (isKind : form.IsKind kind?)
    {pieces : List (Piece Statement)}
    (delimited : Statement.Delimited pieces) :
    form.phrases (Statement.form.join pieces) =
      (pieces.filterMap Piece.phrase?).filterMap kind? :=
  isKind.isBraced.phrases_join isKind.phrases_text delimited

/-- Replacing in a delimited text replaces its statements of the kind. -/
theorem replace_join
    (isKind : form.IsKind kind?)
    (replacement : α → Text)
    {pieces : List (Piece Statement)}
    (delimited : Statement.Delimited pieces) :
    form.replace replacement (Statement.form.join pieces) =
      pieces.flatMap (Piece.text fun statement =>
        (kind? statement).elim statement.text replacement) := by
  rw [isKind.isBraced.replace_join replacement delimited]
  induction delimited with
  | nil => rfl
  | char single others inductionHypothesis => simpa using inductionHypothesis
  | @phrase statement pieces plain others inductionHypothesis =>
      rw [List.flatMap_cons, List.flatMap_cons, inductionHypothesis]
      congr 1
      rw [Piece.text_phrase, Piece.text_phrase, replace, isKind.split_text plain]
      cases kind? statement <;> simp

end Form.IsKind
end OutputThreading
