import OutputThreading.Proofs.Block
import OutputThreading.Proofs.Statement.Kinds

/-!
# Blocks of statements

The pieces of a delimited text are one block if they start with an opener, end with an end statement,
and the markers in between close all other blocks (`Statement.isBlock_join_iff`).
-/

namespace OutputThreading
namespace Statement

/-- The pieces start with a statement and end with an end statement. -/
def Framed (first : Statement) (pieces : List (Piece Statement)) : Prop :=
  ∃ inner, pieces = .phrase first :: (inner ++ [.phrase ending])

theorem marker?_ending : ending.marker? = some .closes := by decide

/-- Changes that leave the first and the last statement alone keep the frame. -/
theorem Framed.map
    {first : Statement}
    {pieces : List (Piece Statement)}
    (framed : Framed first pieces)
    {f : Statement → Statement}
    (firstKept : f first = first)
    (lastKept : f ending = ending) :
    Framed first (pieces.map (Piece.map f)) := by
  obtain ⟨inner, rfl⟩ := framed
  refine ⟨inner.map (Piece.map f), ?_⟩
  simp [Piece.map, firstKept, lastKept]

theorem eq_ending_of_marker? {statement : Statement} (closes : statement.marker? = some .closes) :
    statement = ending := by
  unfold marker? at closes
  rcases Option.or_eq_some_iff.mp closes with opens | ⟨_, isEnd⟩
  · obtain ⟨keyword, _, equal⟩ := Option.map_eq_some_iff.mp opens
    cases equal
  · obtain ⟨interior, _⟩ := Option.ite_none_right_eq_some.mp isEnd
    exact congrArg Statement.mk interior

theorem split_ne_nil (piece : Piece Statement) :
    Marker.form.split (piece.text Statement.text) ≠ [] := by
  intro empty
  have whole := Marker.form.join_split (piece.text Statement.text)
  rw [empty] at whole
  cases piece <;> cases whole

/-- The text of a piece ends with an end marker only if the piece is an end statement. -/
theorem eq_ending_of_getLast?_split
    {piece : Piece Statement}
    (plain : ∀ statement, piece = .phrase statement → statement.IsPlain)
    (ends : (Marker.form.split (piece.text Statement.text)).getLast? = some (.phrase .closes)) :
    piece = .phrase ending := by
  cases piece with
  | char c =>
      rw [Piece.text_char, Marker.form_isBraced.split_singleton] at ends
      cases ends
  | phrase statement =>
      rw [Piece.text_phrase, Marker.split_text (plain statement rfl)] at ends
      cases found : statement.marker? with
      | none =>
          rw [found, Option.elim_none, List.getLast?_map] at ends
          obtain ⟨c, _, equal⟩ := Option.map_eq_some_iff.mp ends
          cases equal
      | some marker =>
          cases marker with
          | closes => rw [eq_ending_of_marker? found]
          | opens keyword =>
              rw [found, Option.elim_some, List.getLast?_cons, List.getLast?_map] at ends
              cases last : (statement.text.drop (Marker.opens keyword).text.length).getLast? with
              | none =>
                  rw [last] at ends
                  cases ends
              | some c =>
                  rw [last] at ends
                  cases ends

/-- The pieces of a delimited text are one block exactly if they start with an opener, end with an end
statement, and their markers close that opener last. -/
theorem isBlock_join_iff
    {pieces : List (Piece Statement)}
    (delimited : Delimited pieces) :
    (form.join pieces).IsBlock ↔
      ∃ first keyword, Framed first pieces ∧ first.marker? = some (.opens keyword) ∧
        Block.Closes 0 ((pieces.filterMap Piece.phrase?).filterMap marker?).tail := by
  have markers : ((Marker.form.split (form.join pieces)).filterMap Piece.phrase?) =
      (pieces.filterMap Piece.phrase?).filterMap marker? :=
    Marker.phrases_join delimited
  rw [Text.isBlock_iff, ← markers]
  constructor
  · rintro ⟨keyword, rest, split, closed, ends⟩
    have tail : Block.Closes 0 ((Marker.form.split (form.join pieces)).filterMap
        Piece.phrase?).tail := by
      rw [split]
      exact closed
    rw [Marker.form_isBraced.split_join delimited] at split
    cases delimited with
    | nil => cases split
    | char single others =>
        rw [List.flatMap_cons, Piece.text_char, Marker.form_isBraced.split_singleton] at split
        cases (List.cons.inj split).1
    | @phrase first pieces plain others =>
        rw [List.flatMap_cons, Piece.text_phrase, Marker.split_text plain] at split
        cases found : first.marker? with
        | none =>
            rw [found] at split
            cases (List.cons.inj split).1
        | some marker =>
            rw [found, Option.elim_some, List.cons_append] at split
            obtain ⟨isOpener, rest_eq⟩ := List.cons.inj split
            obtain rfl := Piece.phrase.inj isOpener
            rcases List.eq_nil_or_concat pieces with rfl | ⟨inner, last, rfl⟩
            · rw [List.flatMap_nil, List.append_nil] at rest_eq
              rw [← rest_eq, List.getLast?_map] at ends
              obtain ⟨c, _, equal⟩ := Option.map_eq_some_iff.mp ends
              cases equal
            · rw [List.concat_eq_append] at rest_eq others tail ⊢
              rw [List.flatMap_append, List.flatMap_singleton, ← List.append_assoc] at rest_eq
              rw [← rest_eq, List.getLast?_append_of_ne_nil _ (split_ne_nil last)] at ends
              have isEnd : last = .phrase ending := by
                refine eq_ending_of_getLast?_split (fun statement equal => ?_) ends
                apply others.isPlain_of_mem
                simp [equal]
              exact ⟨first, keyword, ⟨inner, by rw [isEnd]⟩, found, tail⟩
  · rintro ⟨first, keyword, ⟨inner, rfl⟩, opens, closed⟩
    have plain : first.IsPlain := delimited.isPlain_of_mem (by simp)
    have ends : Marker.form.split ending.text = [.phrase .closes] := by decide +kernel
    have split : Marker.form.split (form.join (.phrase first :: (inner ++ [.phrase ending]))) =
        .phrase (.opens keyword) ::
          ((first.text.drop (Marker.opens keyword).text.length).map .char ++
            inner.flatMap (fun piece => Marker.form.split (piece.text Statement.text)) ++
              [.phrase .closes]) := by
      rw [Marker.form_isBraced.split_join delimited, List.flatMap_cons, Piece.text_phrase,
        Marker.split_text plain, opens, Option.elim_some, List.flatMap_append,
        List.flatMap_singleton, Piece.text_phrase, ends, List.cons_append, List.append_assoc]
    rw [split] at closed ⊢
    exact ⟨keyword, _, rfl, closed, by simp⟩

end Statement
end OutputThreading
