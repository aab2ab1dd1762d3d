import OutputThreading.Proofs.Offset.Cut
import OutputThreading.Proofs.Program.Partition

/-!
# Block ends at byte offsets

The end of a block is found by searching for one marker after the other, each time from the offset
where the last one ends, with a stack of the openers that are not yet closed.  Every search starts
where a character starts, and the search ends where the block ends (`Offset.blockEnd_eq`).
-/

namespace OutputThreading
namespace Offset

/-- An opener on the stack, with the offset it starts at. -/
structure Frame where
  /-- The keyword of the opener. -/
  keyword : Keyword
  /-- The offset of the opener. -/
  start : Nat
deriving Repr, DecidableEq

/-- The open block of a frame of a text. -/
def Frame.opened (text : Text) (frame : Frame) : OpenBlock :=
  ⟨frame.keyword, text.lineAt frame.start⟩

/-- The offset where the last of the open blocks on the stack ends, searched from an offset on. -/
def blockEnd (text : Text) (stack : List Frame) (position : Nat) : Checked Nat :=
  match stack with
  | [] => return position
  | top :: outer => do
      let behind ← (text.sliceFrom? position : Option _)
      match Marker.form.first? behind with
      | none => throw (.unclosedBlock (top.opened text))
      | some (found, marker) =>
          if IsAhead text (position + found.start) (position + found.stop) then
            match marker with
            | .closes => blockEnd text outer (position + found.stop)
            | .opens keyword =>
                blockEnd text (⟨keyword, position + found.start⟩ :: top :: outer)
                  (position + found.stop)
          else liftM (none : Option Nat)
termination_by text.byteSize - position
decreasing_by all_goals omega

/-! ## One step of the search -/

theorem blockEnd_nil
    (before : Text)
    (top : Frame)
    (outer : List Frame) :
    blockEnd before (top :: outer) before.byteSize = throw (.unclosedBlock (top.opened before)) := by
  have behind := Text.sliceFrom?_append before []
  rw [List.append_nil] at behind
  rw [blockEnd, behind, Checked.liftM_some, pure_bind, Form.first?_nil]

/-- The search passes over a character that starts no marker. -/
theorem blockEnd_char
    {text before behind : Text}
    {c : Char}
    (text_eq : text = before ++ c :: behind)
    (notRead : Marker.form.read? (c :: behind) = none)
    (top : Frame)
    (outer : List Frame) :
    blockEnd text (top :: outer) before.byteSize =
      blockEnd text (top :: outer) (before ++ [c]).byteSize := by
  have moved : before ++ c :: behind = (before ++ [c]) ++ behind := by simp
  have position (offset : Nat) :
      (before ++ [c]).byteSize + offset = before.byteSize + (c.utf8Size + offset) := by
    simp [Nat.add_assoc]
  rw [blockEnd, blockEnd, text_eq, Text.sliceFrom?_append, moved, Text.sliceFrom?_append,
    Checked.liftM_some, Checked.liftM_some, pure_bind, pure_bind,
    Marker.form.first?_cons_of_read?_eq_none notRead]
  cases Marker.form.first? behind with
  | none => rfl
  | some found => simp only [Option.map_some, Span.shift, position]

/-- The search goes on behind a marker, with one more opener on the stack or one less. -/
theorem blockEnd_of_read?
    {text before behind rest : Text}
    {marker : Marker}
    (text_eq : text = before ++ behind)
    (read : Marker.form.read? behind = some (marker, rest))
    (top : Frame)
    (outer : List Frame) :
    blockEnd text (top :: outer) before.byteSize =
      blockEnd text
        (match marker with
          | .opens keyword => ⟨keyword, before.byteSize⟩ :: top :: outer
          | .closes => outer)
        (before ++ marker.text).byteSize := by
  have ahead : IsAhead text before.byteSize (before ++ marker.text).byteSize := by
    rw [text_eq, Marker.form.eq_write_append read]
    exact isAhead_append (Marker.form.write_ne_nil marker) before rest
  have stop : before.byteSize + (Marker.form.write marker).byteSize =
      (before ++ marker.text).byteSize := (Text.byteSize_append _ _).symm
  rw [blockEnd, text_eq, Text.sliceFrom?_append, Checked.liftM_some, pure_bind,
    Marker.form.first?_of_read? read, ← text_eq]
  simp only [Nat.add_zero, stop, if_pos ahead]
  cases marker <;> rfl

/-! ## The whole search -/

/-- Where a block ends whose pieces start behind `before`, or which block is to blame. -/
def closedAt (before : Text) :
    Except OpenBlock (List (Piece Marker) × List (Piece Marker)) → Checked Nat
  | .ok (inside, _) => return (before ++ Marker.form.join inside).byteSize
  | .error block => throw (.unclosedBlock block)

/-- A piece in front of the end of a block may be counted as passed. -/
theorem closedAt_bind_cons
    (before : Text)
    (piece : Piece Marker)
    (result : Except OpenBlock (List (Piece Marker) × List (Piece Marker))) :
    closedAt before (result >>= fun (inside, behind) => return (piece :: inside, behind)) =
      closedAt (before ++ piece.text Marker.form.write) result := by
  cases result with
  | error block => rfl
  | ok parts =>
      change pure (before ++ Marker.form.join (piece :: parts.1)).byteSize = _
      rw [Form.join_cons, ← List.append_assoc]
      rfl

/-- A marker that starts behind `before` is on the line that the line breaks there tell. -/
theorem Frame.opened_append (keyword : Keyword) (before behind : Text) :
    opened (before ++ behind) ⟨keyword, before.byteSize⟩ = ⟨keyword, 1 + before.breaks⟩ := by
  rw [opened, Text.lineAt_byteSize_append]

/-- The search for the end of a block gives the offset where the block ends, or blames the block that
is to blame. -/
theorem blockEnd_eq
    {text : Text}
    (before : Text)
    {pieces : List (Piece Marker)}
    (text_eq : text = before ++ Marker.form.join pieces)
    (whole : Marker.form.split (Marker.form.join pieces) = pieces)
    (top : Frame)
    (outer : List Frame) :
    blockEnd text (top :: outer) before.byteSize =
      closedAt before (Block.close (1 + before.breaks) (top.opened text)
        (outer.map (Frame.opened text)) pieces) := by
  induction pieces generalizing before top outer with
  | nil =>
      obtain rfl := text_eq
      rw [Form.join_nil, List.append_nil, blockEnd_nil]
      rfl
  | cons piece pieces inductionHypothesis =>
      have parts : Marker.form.split (Marker.form.join (piece :: pieces)) = [piece] ++ pieces := whole
      have wholeBehind : Marker.form.split (Marker.form.join pieces) = pieces :=
        Marker.form.split_join_of_split_eq_append parts
      have text_eq_behind :
          text = (before ++ piece.text Marker.form.write) ++ Marker.form.join pieces := by
        rw [text_eq, Form.join_cons, List.append_assoc]
      have behind := inductionHypothesis _ text_eq_behind wholeBehind
      cases piece with
      | char c =>
          have notRead := Marker.form.read?_eq_none_of_split_eq_cons whole
          have line : Block.lineAfter (1 + before.breaks) c = 1 + (before ++ [c]).breaks := by
            rw [Block.lineAfter_eq, Text.breaks_append, Nat.add_assoc]
          rw [blockEnd_char text_eq notRead, Block.close, closedAt_bind_cons, line]
          exact behind top outer
      | phrase marker =>
          have read := Marker.form.read?_eq_some_of_split_eq_cons whole
          have line : 1 + before.breaks = 1 + (before ++ marker.text).breaks := by
            rw [Text.breaks_append, marker.breaks_text, Nat.add_zero]
          rw [blockEnd_of_read? text_eq read]
          cases marker with
          | opens keyword =>
              have opened : Frame.opened text ⟨keyword, before.byteSize⟩ =
                  ⟨keyword, 1 + before.breaks⟩ := by
                rw [text_eq, Frame.opened_append]
              rw [Block.close, closedAt_bind_cons, ← opened, line]
              exact behind ⟨keyword, before.byteSize⟩ (top :: outer)
          | closes =>
              cases outer with
              | nil =>
                  rw [blockEnd]
                  change _ = closedAt before (.ok ([.phrase .closes], pieces))
                  simp [closedAt]
                  rfl
              | cons next outer =>
                  rw [List.map_cons, Block.close, closedAt_bind_cons, line]
                  exact behind next outer

end Offset
end OutputThreading
