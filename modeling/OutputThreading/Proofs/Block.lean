import Mathlib.Control.Monad.Basic
import OutputThreading.Cursor
import OutputThreading.Proofs.Form

/-!
# Whole blocks

Whether a text is one block shows in its markers alone, once it is known that a marker starts it and
another one ends it (`Text.isBlock_iff`).  So a change to a text that keeps its markers
and its two ends keeps it one block.
-/

namespace OutputThreading

/-- A computation in steps succeeds exactly if each of the steps does. -/
theorem bind_eq_ok_iff
    {ε α β : Type}
    {first : Except ε α}
    {next : α → Except ε β}
    {result : β} :
    (first >>= next) = .ok result ↔ ∃ value, first = .ok value ∧ next value = .ok result := by
  cases first <;> simp [bind, Except.bind]

theorem pure_eq_ok_iff {ε α : Type} {value result : α} :
    (pure value : Except ε α) = .ok result ↔ value = result := by
  simp [pure, Except.pure]

namespace Block

/-- The markers close as many inner blocks as given and, with the last marker, the block around
them. -/
inductive Closes : Nat → List Marker → Prop
  /-- The block around the inner ones is closed last. -/
  | last : Closes 0 [.closes]
  /-- One more block is opened. -/
  | opens
      (keyword : Keyword)
      {depth : Nat}
      {markers : List Marker}
      (others : Closes (depth + 1) markers) :
      Closes depth (.opens keyword :: markers)
  /-- The innermost block is closed. -/
  | closes
      {depth : Nat}
      {markers : List Marker}
      (others : Closes depth markers) :
      Closes (depth + 1) (.closes :: markers)

theorem not_closes_nil {depth : Nat} : ¬Closes depth [] := by
  intro closed
  cases closed

theorem closes_zero_iff {markers : List Marker} :
    Closes 0 (.closes :: markers) ↔ markers = [] := by
  constructor
  · intro closed
    cases closed
    rfl
  · rintro rfl
    exact .last

theorem closes_succ_iff {depth : Nat} {markers : List Marker} :
    Closes (depth + 1) (.closes :: markers) ↔ Closes depth markers := by
  constructor
  · intro closed
    cases closed with
    | closes others => exact others
  · exact .closes

theorem closes_opens_iff {keyword : Keyword} {depth : Nat} {markers : List Marker} :
    Closes depth (.opens keyword :: markers) ↔ Closes (depth + 1) markers := by
  constructor
  · intro closed
    cases closed with
    | opens keyword others => exact others
  · exact .opens keyword

/-- The pieces of a block end with an end statement. -/
theorem exists_inside_eq_of_close
    {line : Nat}
    {innermost : OpenBlock}
    {outer : List OpenBlock}
    {pieces inside behind : List (Piece Marker)}
    (closed : close line innermost outer pieces = .ok (inside, behind)) :
    ∃ front, inside = front ++ [.phrase .closes] := by
  fun_induction close line innermost outer pieces generalizing inside behind with
  | case1 => cases closed
  | case2 line innermost outer c pieces inductionHypothesis =>
      obtain ⟨⟨part, rest⟩, found, equal⟩ := bind_eq_ok_iff.mp closed
      obtain ⟨rfl, rfl⟩ := Prod.mk.inj (pure_eq_ok_iff.mp equal)
      obtain ⟨front, rfl⟩ := inductionHypothesis found
      exact ⟨.char c :: front, rfl⟩
  | case3 line innermost outer keyword pieces inductionHypothesis =>
      obtain ⟨⟨part, rest⟩, found, equal⟩ := bind_eq_ok_iff.mp closed
      obtain ⟨rfl, rfl⟩ := Prod.mk.inj (pure_eq_ok_iff.mp equal)
      obtain ⟨front, rfl⟩ := inductionHypothesis found
      exact ⟨.phrase (.opens keyword) :: front, rfl⟩
  | case4 line innermost pieces =>
      obtain ⟨rfl, rfl⟩ := Prod.mk.inj (Except.ok.inj closed)
      exact ⟨[], rfl⟩
  | case5 line innermost pieces next outer inductionHypothesis =>
      obtain ⟨⟨part, rest⟩, found, equal⟩ := bind_eq_ok_iff.mp closed
      obtain ⟨rfl, rfl⟩ := Prod.mk.inj (pure_eq_ok_iff.mp equal)
      obtain ⟨front, rfl⟩ := inductionHypothesis found
      exact ⟨.phrase .closes :: front, rfl⟩

/-- Pieces that end with a marker hold one. -/
theorem filterMap_phrase?_ne_nil
    {pieces : List (Piece Marker)}
    {marker : Marker}
    (ends : pieces.getLast? = some (.phrase marker)) :
    pieces.filterMap Piece.phrase? ≠ [] := by
  have member := Form.mem_filterMap_phrase?.mpr (List.mem_of_getLast? ends)
  exact List.ne_nil_of_mem member

theorem getLast?_cons_eq_closes_iff
    {piece : Piece Marker}
    (other : piece ≠ .phrase .closes)
    {pieces : List (Piece Marker)} :
    (piece :: pieces).getLast? = some (.phrase .closes) ↔
      pieces.getLast? = some (.phrase .closes) := by
  cases pieces with
  | nil => simp [other]
  | cons next pieces => rw [List.getLast?_cons_cons]

/-- A piece that is put in front of a block belongs to all of it. -/
theorem bind_eq_ok_self_iff
    {α : Type}
    {first : Except OpenBlock (List α × List α)}
    {next : List α × List α → Except OpenBlock (List α × List α)}
    {piece : α}
    {pieces : List α}
    (continues : ∀ inside behind, next (inside, behind) = .ok (piece :: inside, behind)) :
    (first >>= next) = .ok (piece :: pieces, []) ↔ first = .ok (pieces, []) := by
  rw [bind_eq_ok_iff]
  constructor
  · rintro ⟨⟨inside, behind⟩, closed, equal⟩
    rw [continues] at equal
    obtain ⟨same, rfl⟩ := Prod.mk.inj (Except.ok.inj equal)
    rw [closed, (List.cons.inj same).2]
  · intro closed
    exact ⟨_, closed, continues pieces []⟩

/-- A block takes up all pieces exactly if their markers close it last and the last piece is the
marker that does. -/
theorem close_eq_ok_self_iff
    (line : Nat)
    (innermost : OpenBlock)
    (outer : List OpenBlock)
    (pieces : List (Piece Marker)) :
    close line innermost outer pieces = .ok (pieces, []) ↔
      Closes outer.length (pieces.filterMap Piece.phrase?) ∧
        pieces.getLast? = some (.phrase .closes) := by
  induction pieces generalizing line innermost outer with
  | nil =>
      constructor
      · intro closed
        cases closed
      · rintro ⟨closed, _⟩
        exact absurd closed not_closes_nil
  | cons piece pieces inductionHypothesis =>
      rcases piece with c | keyword | _
      · rw [close, bind_eq_ok_self_iff fun _ _ => rfl, inductionHypothesis,
          List.filterMap_cons_none (Piece.phrase?_char c), getLast?_cons_eq_closes_iff (by simp)]
      · rw [close, bind_eq_ok_self_iff fun _ _ => rfl, inductionHypothesis,
          List.filterMap_cons_some (Piece.phrase?_phrase _), closes_opens_iff,
          getLast?_cons_eq_closes_iff (by simp), List.length_cons]
      · rw [List.filterMap_cons_some (Piece.phrase?_phrase _)]
        cases outer with
        | nil =>
            rw [close, List.length_nil, closes_zero_iff]
            constructor
            · intro closed
              obtain ⟨_, rfl⟩ := Prod.mk.inj (Except.ok.inj closed)
              exact ⟨rfl, rfl⟩
            · rintro ⟨none, ends⟩
              cases pieces with
              | nil => rfl
              | cons next pieces =>
                  rw [List.getLast?_cons_cons] at ends
                  exact absurd none (filterMap_phrase?_ne_nil ends)
        | cons next outer =>
            rw [close, bind_eq_ok_self_iff fun _ _ => rfl, inductionHypothesis, List.length_cons,
              closes_succ_iff]
            refine and_congr_right fun closed => ?_
            cases pieces with
            | nil => exact absurd closed not_closes_nil
            | cons following pieces => rw [List.getLast?_cons_cons]

end Block

/-! ## Texts that are blocks -/

theorem Text.eq_nil_of_byteSize_eq_zero {text : Text} (empty : text.byteSize = 0) : text = [] := by
  cases text with
  | nil => rfl
  | cons c text =>
      rw [byteSize_cons] at empty
      have positive := c.utf8Size_pos
      omega

/-- The block at the start of the text is the whole text. -/
def Text.IsBlock (text : Text) : Prop :=
  Cursor.block? ⟨[], text⟩ = .ok (some ⟨0, text.byteSize⟩)

instance (text : Text) : Decidable text.IsBlock :=
  inferInstanceAs (Decidable (Cursor.block? ⟨[], text⟩ = .ok (some ⟨0, text.byteSize⟩)))

/-- A text is a block exactly if it starts with an opener and ends with the end statement that closes
it. -/
theorem Text.isBlock_iff (text : Text) :
    text.IsBlock ↔ ∃ keyword pieces, Marker.form.split text = .phrase (.opens keyword) :: pieces ∧
      Block.Closes 0 (pieces.filterMap Piece.phrase?) ∧
      pieces.getLast? = some (.phrase .closes) := by
  have joined {keyword : Keyword} {pieces : List (Piece Marker)}
      (split : Marker.form.split text = .phrase (.opens keyword) :: pieces) :
      text = keyword.opener ++ Marker.form.join pieces := by
    rw [← Marker.form.join_split text, split]
    rfl
  constructor
  · intro whole
    obtain ⟨block, leading, equal⟩ := bind_eq_ok_iff.mp whole
    obtain ⟨found, rfl, span⟩ := Option.map_eq_some_iff.mp (pure_eq_ok_iff.mp equal)
    unfold Block.leading? at leading
    split at leading
    next keyword pieces split =>
      obtain ⟨⟨inside, behind⟩, closed, equal⟩ := bind_eq_ok_iff.mp leading
      have part := Option.some.inj (pure_eq_ok_iff.mp equal)
      have parts := Block.append_eq_of_close closed
      have empty : Marker.form.join behind = [] := by
        have size := congrArg Span.stop span
        have whole := joined split
        rw [← parts, Form.join_append] at whole
        apply eq_nil_of_byteSize_eq_zero
        simp only [Span.behind, ← part, whole, byteSize_append, byteSize_nil] at size
        omega
      rw [Marker.form.join_eq_nil_iff] at empty
      rw [empty, List.append_nil] at parts
      rw [parts, empty] at closed
      exact ⟨keyword, pieces, split, (Block.close_eq_ok_self_iff _ _ _ _).mp closed⟩
    next => cases leading
  · rintro ⟨keyword, pieces, split, closed⟩
    have whole := (Block.close_eq_ok_self_iff 1 ⟨keyword, 1⟩ [] pieces).mpr closed
    have leading : Block.leading? 1 text = .ok (some text) := by
      unfold Block.leading?
      rw [split]
      refine bind_eq_ok_iff.mpr ⟨_, whole, pure_eq_ok_iff.mpr ?_⟩
      rw [← joined split]
    refine bind_eq_ok_iff.mpr ⟨_, leading, pure_eq_ok_iff.mpr ?_⟩
    simp [Span.behind]

end OutputThreading
