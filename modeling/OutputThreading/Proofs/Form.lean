import OutputThreading.Text.Form

/-!
# Splitting a text part by part

A form finds its phrases from left to right, so a part of a text in which no phrase starts is
passed over character by character (`Form.split_append_of_skips`).  Phrases and replacements follow
from the split.
-/

namespace OutputThreading
namespace Form

variable {α : Type}

/-! ## Phrases and replacements from the split -/

@[simp] theorem phrases_nil (form : Form α) : form.phrases [] = [] := by
  simp [phrases]

theorem phrases_of_read?
    (form : Form α)
    {text rest : Text}
    {phrase : α}
    (found : form.read? text = some (phrase, rest)) :
    form.phrases text = phrase :: form.phrases rest := by
  simp [phrases, form.split_of_read? found]

theorem phrases_cons_of_read?_eq_none
    (form : Form α)
    {c : Char}
    {tail : Text}
    (notFound : form.read? (c :: tail) = none) :
    form.phrases (c :: tail) = form.phrases tail := by
  simp [phrases, form.split_cons_of_read?_eq_none notFound, List.filterMap_cons]

@[simp] theorem filterMap_phrase?_map_char (text : Text) :
    (text.map (Piece.char : Char → Piece α)).filterMap Piece.phrase? = [] := by
  induction text with
  | nil => rfl
  | cons c text inductionHypothesis => simp [List.filterMap_cons, inductionHypothesis]

@[simp] theorem flatMap_text_map_char (write : α → Text) (text : Text) :
    (text.map (Piece.char : Char → Piece α)).flatMap (Piece.text write) = text := by
  induction text with
  | nil => rfl
  | cons c text inductionHypothesis => simp [inductionHypothesis]

@[simp] theorem mem_filterMap_phrase? {phrase : α} {pieces : List (Piece α)} :
    phrase ∈ pieces.filterMap Piece.phrase? ↔ .phrase phrase ∈ pieces := by
  rw [List.mem_filterMap]
  constructor
  · rintro ⟨piece, member, found⟩
    cases piece with
    | char c => cases found
    | phrase other =>
        cases found
        exact member
  · intro member
    exact ⟨_, member, rfl⟩

theorem join_eq_nil_iff (form : Form α) {pieces : List (Piece α)} :
    form.join pieces = [] ↔ pieces = [] := by
  match pieces with
  | [] => simp
  | .char c :: pieces => simp
  | .phrase phrase :: pieces => simp [form.write_ne_nil]

theorem write_infix_join
    (form : Form α)
    {phrase : α}
    {pieces : List (Piece α)}
    (member : .phrase phrase ∈ pieces) :
    form.write phrase <:+: form.join pieces := by
  obtain ⟨before, behind, rfl⟩ := List.append_of_mem member
  exact ⟨form.join before, form.join behind, by simp⟩

@[simp] theorem filterMap_phrase?_map
    {β : Type}
    (f : α → β)
    (pieces : List (Piece α)) :
    (pieces.map (Piece.map f)).filterMap Piece.phrase? =
      (pieces.filterMap Piece.phrase?).map f := by
  induction pieces with
  | nil => rfl
  | cons piece pieces inductionHypothesis =>
      cases piece <;> simp [List.filterMap_cons, Piece.map, inductionHypothesis]

/-- Changes of the phrases that keep their kinds keep the kinds that are found. -/
theorem filterMap_phrase?_map_of_kept
    {β : Type}
    {kind? : α → Option β}
    {f : α → α}
    (kept : ∀ phrase, kind? (f phrase) = kind? phrase)
    (pieces : List (Piece α)) :
    ((pieces.map (Piece.map f)).filterMap Piece.phrase?).filterMap kind? =
      (pieces.filterMap Piece.phrase?).filterMap kind? := by
  have same : kind? ∘ f = kind? := by
    funext phrase
    exact kept phrase
  rw [filterMap_phrase?_map, List.filterMap_map, same]

theorem eq_map_char_of_filterMap_eq_nil
    (form : Form α)
    {pieces : List (Piece α)}
    (none : pieces.filterMap Piece.phrase? = []) :
    pieces = (form.join pieces).map .char := by
  induction pieces with
  | nil => rfl
  | cons piece pieces inductionHypothesis =>
      cases piece with
      | char c =>
          have others := inductionHypothesis (by simpa [List.filterMap_cons] using none)
          rw [join_cons, Piece.text_char, List.singleton_append, List.map_cons, ← others]
      | phrase phrase => simp at none

theorem replaceInLineFrom_eq_join
    (form : Form α)
    {replacement : Text → α → Text}
    {pieces : List (Piece α)}
    (kept : ∀ phrase ∈ pieces.filterMap Piece.phrase?, ∀ line,
      replacement line phrase = form.write phrase)
    (line : Text) :
    form.replaceInLineFrom replacement line pieces = form.join pieces := by
  induction pieces generalizing line with
  | nil => rfl
  | cons piece pieces inductionHypothesis =>
      cases piece with
      | char c =>
          rw [replaceInLineFrom, inductionHypothesis kept]
          rfl
      | phrase phrase =>
          have others := inductionHypothesis fun other member =>
            kept other (List.mem_cons_of_mem phrase member)
          rw [replaceInLineFrom, kept phrase List.mem_cons_self, others]
          rfl

/-- Phrases that are replaced by themselves leave the text as it is. -/
theorem replaceInLine_eq_self
    (form : Form α)
    {replacement : Text → α → Text}
    {text : Text}
    (kept : ∀ phrase ∈ form.phrases text, ∀ line, replacement line phrase = form.write phrase) :
    form.replaceInLine replacement text = text :=
  (form.replaceInLineFrom_eq_join kept []).trans (form.join_split text)

theorem occurrencesFrom_map_char_append
    (form : Form α)
    (seen text : Text)
    (pieces : List (Piece α)) :
    form.occurrencesFrom seen (text.map .char ++ pieces) =
      form.occurrencesFrom (text.reverse ++ seen) pieces := by
  induction text generalizing seen with
  | nil => rfl
  | cons c text inductionHypothesis =>
      rw [List.map_cons, List.cons_append, occurrencesFrom, inductionHypothesis]
      simp

/-- The only occurrence of a phrase stands between two parts without one. -/
theorem exists_eq_of_occurrencesFrom_eq_singleton
    (form : Form α)
    {seen : Text}
    {pieces : List (Piece α)}
    {occurrence : Occurrence α}
    (only : form.occurrencesFrom seen pieces = [occurrence]) :
    ∃ front behind : Text,
      pieces = front.map .char ++ .phrase occurrence.phrase :: behind.map .char ∧
        occurrence.before = seen.reverse ++ front ∧ occurrence.after = behind := by
  induction pieces generalizing seen with
  | nil => cases only
  | cons piece pieces inductionHypothesis =>
      cases piece with
      | char c =>
          obtain ⟨front, behind, pieces_eq, before_eq, after_eq⟩ := inductionHypothesis only
          exact ⟨c :: front, behind, by rw [pieces_eq]; rfl, by simp [before_eq], after_eq⟩
      | phrase phrase =>
          obtain ⟨rfl, none⟩ := List.cons.inj only
          have noPhrase := form.map_phrase_occurrencesFrom
            ((form.write phrase).reverse ++ seen) pieces
          rw [none] at noPhrase
          refine ⟨[], form.join pieces, ?_, by simp, rfl⟩
          rw [← form.eq_map_char_of_filterMap_eq_nil noPhrase.symm]
          rfl

/-! ## Parts of a split -/

theorem read?_eq_some_of_split_eq_cons
    (form : Form α)
    {text : Text}
    {phrase : α}
    {pieces : List (Piece α)}
    (split_eq : form.split text = .phrase phrase :: pieces) :
    form.read? text = some (phrase, form.join pieces) := by
  cases text with
  | nil => simp at split_eq
  | cons c tail =>
      cases found : form.read? (c :: tail) with
      | none =>
          rw [form.split_cons_of_read?_eq_none found] at split_eq
          cases (List.cons.inj split_eq).1
      | some result =>
          rw [form.split_of_read? found] at split_eq
          obtain ⟨phrase_eq, rfl⟩ := List.cons.inj split_eq
          rw [← Piece.phrase.inj phrase_eq, join_split]

theorem read?_eq_none_of_split_eq_cons
    (form : Form α)
    {text : Text}
    {c : Char}
    {pieces : List (Piece α)}
    (split_eq : form.split text = .char c :: pieces) :
    form.read? text = none := by
  cases found : form.read? text with
  | none => rfl
  | some result =>
      rw [form.split_of_read? found] at split_eq
      cases (List.cons.inj split_eq).1

/-- What is left of a split behind some of its pieces is the split of what is left of the text. -/
theorem split_join_of_split_eq_append
    (form : Form α)
    {text : Text}
    {front rest : List (Piece α)}
    (split_eq : form.split text = front ++ rest) :
    form.split (form.join rest) = rest := by
  induction front generalizing text with
  | nil =>
      have whole : form.split text = rest := split_eq
      rw [← whole, join_split]
  | cons piece front inductionHypothesis =>
      cases text with
      | nil => simp at split_eq
      | cons c tail =>
          cases found : form.read? (c :: tail) with
          | none =>
              rw [form.split_cons_of_read?_eq_none found] at split_eq
              exact inductionHypothesis (List.cons.inj split_eq).2
          | some result =>
              rw [form.split_of_read? found] at split_eq
              exact inductionHypothesis (List.cons.inj split_eq).2

/-- Two initial parts of the same pieces that are written alike are the same. -/
theorem eq_of_append_eq_append_of_join_eq
    (form : Form α)
    {front behind otherFront otherBehind : List (Piece α)}
    (same : front ++ behind = otherFront ++ otherBehind)
    (written : form.join front = form.join otherFront) :
    front = otherFront := by
  rcases List.append_eq_append_iff.mp same with ⟨more, rfl, _⟩ | ⟨more, rfl, _⟩
  · rw [join_append, List.self_eq_append_right, join_eq_nil_iff] at written
    rw [written, List.append_nil]
  · rw [join_append, List.append_right_eq_self, join_eq_nil_iff] at written
    rw [written, List.append_nil]

/-- The pieces around a phrase hold the phrases around it. -/
theorem exists_eq_append_of_filterMap_eq_append
    {pieces : List (Piece α)}
    {left right : List α}
    {phrase : α}
    (phrases_eq : pieces.filterMap Piece.phrase? = left ++ phrase :: right) :
    ∃ front behind, pieces = front ++ .phrase phrase :: behind ∧
      front.filterMap Piece.phrase? = left ∧ behind.filterMap Piece.phrase? = right := by
  obtain ⟨front, others, rfl, front_eq, others_eq⟩ := List.filterMap_eq_append_iff.mp phrases_eq
  obtain ⟨chars, piece, behind, rfl, none, piece_eq, behind_eq⟩ :=
    List.filterMap_eq_cons_iff.mp others_eq
  cases piece with
  | char c => cases piece_eq
  | phrase other =>
      obtain rfl := Option.some.inj piece_eq
      refine ⟨front ++ chars, behind, by rw [List.append_assoc], ?_, behind_eq⟩
      rw [List.filterMap_append, front_eq, List.filterMap_eq_nil_iff.mpr none, List.append_nil]

/-! ## Texts that come apart -/

/-- A text comes apart where what follows has no say in the phrases in front. -/
theorem split_append
    (form : Form α)
    {front rest : Text}
    (reads : ∀ part, part <:+ front → part ≠ [] →
      form.read? (part ++ rest) =
        (form.read? part).map fun (phrase, behind) => (phrase, behind ++ rest)) :
    form.split (front ++ rest) = form.split front ++ form.split rest := by
  fun_induction form.split front with
  | case1 => rfl
  | case2 c tail phrase behind found inductionHypothesis =>
      have again := reads (c :: tail) List.suffix_rfl (List.cons_ne_nil c tail)
      rw [found] at again
      have suffix : behind <:+ c :: tail := ⟨form.write phrase, (form.eq_write_append found).symm⟩
      rw [form.split_of_read? again,
        inductionHypothesis fun part inside => reads part (inside.trans suffix), List.cons_append]
  | case3 c tail notFound inductionHypothesis =>
      have again := reads (c :: tail) List.suffix_rfl (List.cons_ne_nil c tail)
      rw [notFound, List.cons_append, Option.map_none] at again
      rw [List.cons_append, form.split_cons_of_read?_eq_none again,
        inductionHypothesis fun part inside => reads part (inside.trans (List.suffix_cons c tail)),
        List.cons_append]

theorem phrases_append_of_split_append
    (form : Form α)
    {front rest : Text}
    (apart : form.split (front ++ rest) = form.split front ++ form.split rest) :
    form.phrases (front ++ rest) = form.phrases front ++ form.phrases rest := by
  rw [phrases, apart, List.filterMap_append]
  rfl

/-! ## Parts without a phrase -/

/-- No phrase of the form starts in `front` when `rest` follows it. -/
def Skips (form : Form α) (front rest : Text) : Prop :=
  ∀ part, part <:+ front → part ≠ [] → form.read? (part ++ rest) = none

namespace Skips

variable {form : Form α}

theorem tail
    {c : Char}
    {front rest : Text}
    (skips : form.Skips (c :: front) rest) :
    form.Skips front rest :=
  fun part suffix nonempty => skips part (suffix.trans (List.suffix_cons c front)) nonempty

theorem read?_eq_none
    {c : Char}
    {front rest : Text}
    (skips : form.Skips (c :: front) rest) :
    form.read? (c :: (front ++ rest)) = none :=
  skips (c :: front) List.suffix_rfl (List.cons_ne_nil c front)

/-- A part is skipped if its first character is and the others are. -/
theorem cons
    {c : Char}
    {front rest : Text}
    (first : form.read? (c :: (front ++ rest)) = none)
    (others : form.Skips front rest) :
    form.Skips (c :: front) rest := by
  intro part suffix nonempty
  rcases List.suffix_cons_iff.mp suffix with rfl | suffix
  · exact first
  · exact others part suffix nonempty

theorem nil (rest : Text) : form.Skips [] rest :=
  fun _ suffix nonempty => absurd (List.suffix_nil.mp suffix) nonempty

/-- Two parts in a row are skipped if the first is in front of the second. -/
theorem append
    {front behind rest : Text}
    (first : form.Skips front (behind ++ rest))
    (second : form.Skips behind rest) :
    form.Skips (front ++ behind) rest := by
  induction front with
  | nil => exact second
  | cons c front inductionHypothesis =>
      refine cons ?_ (inductionHypothesis first.tail)
      simpa using first.read?_eq_none

/-- Characters at which no phrase can start are skipped. -/
theorem of_forall_mem
    {front : Text}
    (never : ∀ c ∈ front, ∀ text, form.read? (c :: text) = none)
    (rest : Text) :
    form.Skips front rest := by
  induction front with
  | nil => exact nil rest
  | cons c front inductionHypothesis =>
      refine cons (never c List.mem_cons_self _) (inductionHypothesis fun d member => ?_)
      exact never d (List.mem_cons_of_mem c member)

end Skips

/-- A part in which no phrase starts is passed over. -/
theorem split_append_of_skips
    (form : Form α)
    {front rest : Text}
    (skips : form.Skips front rest) :
    form.split (front ++ rest) = front.map .char ++ form.split rest := by
  induction front with
  | nil => rfl
  | cons c front inductionHypothesis =>
      rw [List.cons_append, form.split_cons_of_read?_eq_none skips.read?_eq_none,
        inductionHypothesis skips.tail]
      rfl

theorem phrases_append_of_skips
    (form : Form α)
    {front rest : Text}
    (skips : form.Skips front rest) :
    form.phrases (front ++ rest) = form.phrases rest := by
  simp [phrases, form.split_append_of_skips skips]

theorem Skips.split_eq
    {form : Form α}
    {text : Text}
    (skips : form.Skips text []) :
    form.split text = text.map .char := by
  have passed := form.split_append_of_skips skips
  rwa [List.append_nil, split_nil, List.append_nil] at passed

theorem Skips.phrases_eq_nil
    {form : Form α}
    {text : Text}
    (skips : form.Skips text []) :
    form.phrases text = [] := by
  rw [phrases, skips.split_eq, filterMap_phrase?_map_char]

end Form
end OutputThreading
