import OutputThreading.Text.Basic

/-!
# Forms of text

A form is a kind of phrase that can be recognised at a place of a text and written back: a
statement, a comment, a call.  Every text splits into the phrases of a form, found from left to
right without overlap, and the single characters between them.  Writing the pieces back one after
the other gives the text again (`Form.join_split`), so replacing phrases touches nothing else.
-/

namespace OutputThreading

/-- A kind of phrase: how it is recognised at the start of a text and how it is written. -/
structure Form (α : Type) where
  /-- Recognise a phrase at the start of the text; the rest is what follows it. -/
  read? : Text → Option (α × Text)
  /-- Write a phrase. -/
  write : α → Text
  /-- No phrase is written as nothing. -/
  write_ne_nil : ∀ phrase, write phrase ≠ []
  /-- A recognised phrase stands in the text as it is written. -/
  eq_write_append : ∀ {text phrase rest}, read? text = some (phrase, rest) →
    text = write phrase ++ rest

/-- One piece of a text that was split by a form. -/
inductive Piece (α : Type) where
  /-- A character that belongs to no phrase. -/
  | char (c : Char)
  /-- A phrase. -/
  | phrase (phrase : α)
deriving Repr, DecidableEq

namespace Piece

variable {α β : Type}

/-- Apply a function to the phrase of a piece. -/
def map (f : α → β) : Piece α → Piece β
  | char c => char c
  | phrase item => phrase (f item)

/-- The phrase of a piece, if it is one. -/
def phrase? : Piece α → Option α
  | char _ => none
  | phrase item => some item

/-- The text of a piece whose phrase is written by `write`. -/
def text (write : α → Text) : Piece α → Text
  | char c => [c]
  | phrase item => write item

@[simp] theorem text_char (write : α → Text) (c : Char) : (char c).text write = [c] := rfl

@[simp] theorem text_phrase (write : α → Text) (item : α) :
    (phrase item).text write = write item := rfl

@[simp] theorem phrase?_char (c : Char) : (char c : Piece α).phrase? = none := rfl

@[simp] theorem phrase?_phrase (item : α) : (phrase item).phrase? = some item := rfl

end Piece

namespace Form

variable {α : Type}

/-- A phrase takes at least one character, so what follows it is shorter than the text. -/
theorem length_lt_of_read?
    (form : Form α)
    {text rest : Text}
    {phrase : α}
    (found : form.read? text = some (phrase, rest)) :
    rest.length < text.length := by
  have written := form.eq_write_append found
  have nonempty := List.length_pos_iff.mpr (form.write_ne_nil phrase)
  rw [written, List.length_append]
  omega

/-- Split a text into phrases and the characters between them. -/
def split (form : Form α) (text : Text) : List (Piece α) :=
  match text with
  | [] => []
  | c :: tail =>
      match _found : form.read? (c :: tail) with
      | some (phrase, rest) => .phrase phrase :: form.split rest
      | none => .char c :: form.split tail
termination_by text.length
decreasing_by
  · exact form.length_lt_of_read? _found
  · simp

@[simp] theorem split_nil (form : Form α) : form.split [] = [] := by
  rw [split]

theorem split_of_read?
    (form : Form α)
    {text rest : Text}
    {phrase : α}
    (found : form.read? text = some (phrase, rest)) :
    form.split text = .phrase phrase :: form.split rest := by
  cases text with
  | nil => exact absurd (form.length_lt_of_read? found) (by simp)
  | cons c tail =>
      rw [split]
      split
      next otherFound =>
        rw [found] at otherFound
        cases otherFound
        rfl
      next notFound =>
        rw [found] at notFound
        cases notFound

theorem split_cons_of_read?_eq_none
    (form : Form α)
    {c : Char}
    {tail : Text}
    (notFound : form.read? (c :: tail) = none) :
    form.split (c :: tail) = .char c :: form.split tail := by
  rw [split]
  split
  next found =>
    rw [notFound] at found
    cases found
  next => rfl

/-- Write pieces one after the other. -/
def join (form : Form α) (pieces : List (Piece α)) : Text :=
  pieces.flatMap (Piece.text form.write)

@[simp] theorem join_nil (form : Form α) : form.join [] = [] := rfl

@[simp] theorem join_cons (form : Form α) (piece : Piece α) (pieces : List (Piece α)) :
    form.join (piece :: pieces) = piece.text form.write ++ form.join pieces := rfl

@[simp] theorem join_append (form : Form α) (left right : List (Piece α)) :
    form.join (left ++ right) = form.join left ++ form.join right := by
  simp [join]

/-- Splitting loses nothing: the pieces make up the text. -/
@[simp] theorem join_split (form : Form α) (text : Text) : form.join (form.split text) = text := by
  fun_induction form.split text with
  | case1 => rfl
  | case2 c tail phrase rest found inductionHypothesis =>
      rw [join_cons, inductionHypothesis, Piece.text_phrase, form.eq_write_append found]
  | case3 c tail notFound inductionHypothesis =>
      rw [join_cons, inductionHypothesis, Piece.text_char, List.singleton_append]

/-- The phrases of a text, from left to right. -/
def phrases (form : Form α) (text : Text) : List α :=
  (form.split text).filterMap Piece.phrase?

/-- The text holds a phrase of the form. -/
def occursIn (form : Form α) (text : Text) : Bool :=
  !(form.phrases text).isEmpty

/-- Replace every phrase of the text. -/
def replace (form : Form α) (replacement : α → Text) (text : Text) : Text :=
  (form.split text).flatMap (Piece.text replacement)

/-! ## Phrases in their surroundings -/

/-- A phrase together with the text around it. -/
structure Occurrence (α : Type) where
  /-- The text in front of the phrase. -/
  before : Text
  /-- The phrase itself. -/
  phrase : α
  /-- The text behind the phrase. -/
  after : Text
deriving Repr, DecidableEq

/-- The phrases of the pieces in their surroundings.  The text already passed is `seen`, its nearest
character first. -/
def occurrencesFrom (form : Form α) (seen : Text) : List (Piece α) → List (Occurrence α)
  | [] => []
  | .char c :: pieces => form.occurrencesFrom (c :: seen) pieces
  | .phrase phrase :: pieces =>
      ⟨seen.reverse, phrase, form.join pieces⟩ ::
        form.occurrencesFrom ((form.write phrase).reverse ++ seen) pieces

/-- The occurrences of a form in a text, from left to right. -/
def occurrences (form : Form α) (text : Text) : List (Occurrence α) :=
  form.occurrencesFrom [] (form.split text)

theorem map_phrase_occurrencesFrom (form : Form α) (seen : Text) (pieces : List (Piece α)) :
    (form.occurrencesFrom seen pieces).map Occurrence.phrase =
      pieces.filterMap Piece.phrase? := by
  induction pieces generalizing seen with
  | nil => rfl
  | cons piece pieces inductionHypothesis =>
      cases piece with
      | char c => simp [occurrencesFrom, inductionHypothesis, List.filterMap_cons]
      | phrase phrase => simp [occurrencesFrom, inductionHypothesis]

/-- Forgetting the surroundings gives the phrases of the text. -/
@[simp] theorem map_phrase_occurrences (form : Form α) (text : Text) :
    (form.occurrences text).map Occurrence.phrase = form.phrases text :=
  form.map_phrase_occurrencesFrom [] (form.split text)

theorem before_append_write_append_after_of_mem_occurrencesFrom
    (form : Form α)
    {seen : Text}
    {pieces : List (Piece α)}
    {occurrence : Occurrence α}
    (member : occurrence ∈ form.occurrencesFrom seen pieces) :
    occurrence.before ++ form.write occurrence.phrase ++ occurrence.after =
      seen.reverse ++ form.join pieces := by
  induction pieces generalizing seen with
  | nil => simp [occurrencesFrom] at member
  | cons piece pieces inductionHypothesis =>
      cases piece with
      | char c =>
          have memberBehind : occurrence ∈ form.occurrencesFrom (c :: seen) pieces := member
          simpa using inductionHypothesis memberBehind
      | phrase phrase =>
          simp only [occurrencesFrom, List.mem_cons] at member
          rcases member with rfl | member
          · simp
          · simpa using inductionHypothesis member

/-- An occurrence with its surroundings is the whole text. -/
theorem before_append_write_append_after
    (form : Form α)
    {text : Text}
    {occurrence : Occurrence α}
    (member : occurrence ∈ form.occurrences text) :
    occurrence.before ++ form.write occurrence.phrase ++ occurrence.after = text := by
  simpa using form.before_append_write_append_after_of_mem_occurrencesFrom member

/-! ## Phrases at their offsets -/

/-- The phrases of the pieces with the byte offsets they start at, when the pieces start at
`offset`. -/
def placedFrom (form : Form α) (offset : Nat) : List (Piece α) → List (Nat × α)
  | [] => []
  | .char c :: pieces => form.placedFrom (offset + c.utf8Size) pieces
  | .phrase phrase :: pieces =>
      (offset, phrase) :: form.placedFrom (offset + (form.write phrase).byteSize) pieces

/-- A phrase is placed behind the bytes of the text in front of it. -/
theorem placedFrom_add_byteSize
    (form : Form α)
    (offset : Nat)
    (seen : Text)
    (pieces : List (Piece α)) :
    form.placedFrom (offset + seen.byteSize) pieces =
      (form.occurrencesFrom seen pieces).map fun occurrence =>
        (offset + occurrence.before.byteSize, occurrence.phrase) := by
  induction pieces generalizing seen with
  | nil => rfl
  | cons piece pieces inductionHypothesis =>
      cases piece with
      | char c =>
          have passed : offset + seen.byteSize + c.utf8Size =
              offset + Text.byteSize (c :: seen) := by
            simp only [Text.byteSize_cons]
            omega
          rw [placedFrom, passed, inductionHypothesis, occurrencesFrom]
      | phrase phrase =>
          have passed : offset + seen.byteSize + (form.write phrase).byteSize =
              offset + Text.byteSize ((form.write phrase).reverse ++ seen) := by
            simp only [Text.byteSize_append, Text.byteSize_reverse]
            omega
          rw [placedFrom, passed, inductionHypothesis, occurrencesFrom, List.map_cons,
            Text.byteSize_reverse]

/-- The phrases of a text with the byte offsets they start at, when the text starts at `offset`. -/
def placed (form : Form α) (offset : Nat) (text : Text) : List (Nat × α) :=
  form.placedFrom offset (form.split text)

/-- The offsets tell how much text is in front of each occurrence. -/
theorem placed_eq_map_occurrences (form : Form α) (offset : Nat) (text : Text) :
    form.placed offset text =
      (form.occurrences text).map fun occurrence =>
        (offset + occurrence.before.byteSize, occurrence.phrase) :=
  form.placedFrom_add_byteSize offset [] (form.split text)

/-! ## Phrases on their lines -/

/-- The phrases of the pieces with the lines they start on, when the pieces start on `line`. -/
def linedFrom (form : Form α) (line : Nat) : List (Piece α) → List (Nat × α)
  | [] => []
  | .char c :: pieces => form.linedFrom (if c = '\n' then line + 1 else line) pieces
  | .phrase phrase :: pieces =>
      (line, phrase) :: form.linedFrom (line + (form.write phrase).breaks) pieces

/-- The phrases of a text with the lines they start on, counted from one. -/
def lined (form : Form α) (text : Text) : List (Nat × α) :=
  form.linedFrom 1 (form.split text)

theorem map_snd_linedFrom (form : Form α) (line : Nat) (pieces : List (Piece α)) :
    (form.linedFrom line pieces).map Prod.snd = pieces.filterMap Piece.phrase? := by
  induction pieces generalizing line with
  | nil => rfl
  | cons piece pieces inductionHypothesis =>
      cases piece with
      | char c => simp [linedFrom, inductionHypothesis, List.filterMap_cons]
      | phrase phrase => simp [linedFrom, inductionHypothesis]

/-- Forgetting the lines gives the phrases of the text. -/
@[simp] theorem map_snd_lined (form : Form α) (text : Text) :
    (form.lined text).map Prod.snd = form.phrases text :=
  form.map_snd_linedFrom 1 (form.split text)

/-- Replace every phrase of the pieces by what it gives behind the part of its line in front of it.
The part of the line already passed is `line`, its nearest character first. -/
def replaceInLineFrom
    (form : Form α)
    (replacement : Text → α → Text)
    (line : Text) : List (Piece α) → Text
  | [] => []
  | .char c :: pieces =>
      c :: form.replaceInLineFrom replacement (if c = '\n' then [] else c :: line) pieces
  | .phrase phrase :: pieces =>
      replacement line.reverse phrase ++
        form.replaceInLineFrom replacement
          (((form.write phrase).reverse ++ line).takeWhile (· ≠ '\n')) pieces

/-- Replace every phrase of the text by what it gives behind the part of its line in front of it. -/
def replaceInLine (form : Form α) (replacement : Text → α → Text) (text : Text) : Text :=
  form.replaceInLineFrom replacement [] (form.split text)

theorem replaceInLineFrom_const
    (form : Form α)
    (replacement : α → Text)
    (line : Text)
    (pieces : List (Piece α)) :
    form.replaceInLineFrom (fun _ => replacement) line pieces =
      pieces.flatMap (Piece.text replacement) := by
  induction pieces generalizing line with
  | nil => rfl
  | cons piece pieces inductionHypothesis =>
      cases piece with
      | char c => simp [replaceInLineFrom, inductionHypothesis]
      | phrase phrase => simp [replaceInLineFrom, inductionHypothesis]

/-- A replacement that does not look at the line is a plain replacement. -/
@[simp] theorem replaceInLine_const (form : Form α) (replacement : α → Text) (text : Text) :
    form.replaceInLine (fun _ => replacement) text = form.replace replacement text :=
  form.replaceInLineFrom_const replacement [] (form.split text)

end Form
end OutputThreading
