import OutputThreading.Marker

/-!
# Blocks

A block runs from its opener to the end statement that closes it, with properly closed blocks in
between.  Blocks are resolved on the pieces of a text that was split into markers and characters,
with a stack of the blocks that are still open.  When the text ends too early, the innermost open
block is to blame.
-/

namespace OutputThreading

/-- A block that has been opened, with the line of its opener. -/
structure OpenBlock where
  /-- The keyword that opened the block. -/
  keyword : Keyword
  /-- The line of the opener, counted from one. -/
  line : Nat
deriving Repr, DecidableEq

namespace Block

/-- The line on which the text behind a character stands. -/
def lineAfter (line : Nat) (c : Char) : Nat :=
  if c = '\n' then line + 1 else line

/-- Find the end of the outermost of the open blocks.  The result is the pieces up to that end, the
end statement included, and the pieces behind it. -/
def close
    (line : Nat)
    (innermost : OpenBlock)
    (outer : List OpenBlock) :
    List (Piece Marker) → Except OpenBlock (List (Piece Marker) × List (Piece Marker))
  | [] => .error innermost
  | .char c :: pieces => do
      let (inside, behind) ← close (lineAfter line c) innermost outer pieces
      return (.char c :: inside, behind)
  | .phrase (.opens keyword) :: pieces => do
      let (inside, behind) ← close line ⟨keyword, line⟩ (innermost :: outer) pieces
      return (.phrase (.opens keyword) :: inside, behind)
  | .phrase .closes :: pieces =>
      match outer with
      | [] => .ok ([.phrase .closes], pieces)
      | next :: outer => do
          let (inside, behind) ← close line next outer pieces
          return (.phrase .closes :: inside, behind)

/-- Closing a block cuts the pieces in two and loses none. -/
theorem append_eq_of_close
    {line : Nat}
    {innermost : OpenBlock}
    {outer : List OpenBlock}
    {pieces inside behind : List (Piece Marker)}
    (closed : close line innermost outer pieces = .ok (inside, behind)) :
    inside ++ behind = pieces := by
  fun_induction close line innermost outer pieces generalizing inside behind with
  | case1 => cases closed
  | case2 line innermost outer c pieces inductionHypothesis =>
      cases result : close (lineAfter line c) innermost outer pieces with
      | error block => simp [result, bind, Except.bind] at closed
      | ok parts =>
          simp only [result, bind, Except.bind, pure, Except.pure, Except.ok.injEq,
            Prod.mk.injEq] at closed
          obtain ⟨rfl, rfl⟩ := closed
          simp [inductionHypothesis result]
  | case3 line innermost outer keyword pieces inductionHypothesis =>
      cases result : close line ⟨keyword, line⟩ (innermost :: outer) pieces with
      | error block => simp [result, bind, Except.bind] at closed
      | ok parts =>
          simp only [result, bind, Except.bind, pure, Except.pure, Except.ok.injEq,
            Prod.mk.injEq] at closed
          obtain ⟨rfl, rfl⟩ := closed
          simp [inductionHypothesis result]
  | case4 line innermost pieces =>
      simp only [Except.ok.injEq, Prod.mk.injEq] at closed
      obtain ⟨rfl, rfl⟩ := closed
      simp
  | case5 line innermost pieces next outer inductionHypothesis =>
      cases result : close line next outer pieces with
      | error block => simp [result, bind, Except.bind] at closed
      | ok parts =>
          simp only [result, bind, Except.bind, pure, Except.pure, Except.ok.injEq,
            Prod.mk.injEq] at closed
          obtain ⟨rfl, rfl⟩ := closed
          simp [inductionHypothesis result]

/-- The part of the text that belongs to an open block, its end statement included.  The text
starts on `line`. -/
def remainder (line : Nat) (opened : OpenBlock) (text : Text) : Except OpenBlock Text := do
  let (inside, _) ← close line opened [] (Marker.form.split text)
  return Marker.form.join inside

/-- The block that a text starts with, if it starts with an opener.  The text starts on `line`. -/
def leading? (line : Nat) (text : Text) : Except OpenBlock (Option Text) :=
  match Marker.form.split text with
  | .phrase (.opens keyword) :: pieces => do
      let (inside, _) ← close line ⟨keyword, line⟩ [] pieces
      return some (keyword.opener ++ Marker.form.join inside)
  | _ => return none

end Block
end OutputThreading
