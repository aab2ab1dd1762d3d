import OutputThreading.Error
import OutputThreading.Proofs.Marker.Placement

/-!
# Cuts at byte offsets

A text that is kept as bytes is cut and edited at byte offsets.  Such an operation has no result if
an offset lies behind the end of the text or inside of a character, or if a range ends before it
starts.  Every operation comes with its law for offsets that mark off parts of a text, so that what
is left to show of a computation on offsets is that its offsets do.
-/

namespace OutputThreading

/-! ## Slices -/

namespace Text

/-- The text from an offset on. -/
def sliceFrom? (text : Text) (start : Nat) : Option Text :=
  (text.cut? start).map Prod.snd

/-- The text up to an offset. -/
def sliceTo? (text : Text) (stop : Nat) : Option Text :=
  (text.cut? stop).map Prod.fst

/-- The text in a range. -/
def slice? (text : Text) (span : Span) : Option Text := do
  let front ← text.sliceTo? span.stop
  front.sliceFrom? span.start

/-- The text with another text in the place of a range. -/
def replaceRange? (text : Text) (span : Span) (replacement : Text) : Option Text := do
  let (front, behind) ← text.cut? span.stop
  let before ← front.sliceTo? span.start
  return before ++ (replacement ++ behind)

/-- The text with another text put in at an offset. -/
def insertAt? (text : Text) (offset : Nat) (insertion : Text) : Option Text := do
  let (before, behind) ← text.cut? offset
  return before ++ (insertion ++ behind)

/-- The offset of the first occurrence of a pattern. -/
def find? (text pattern : Text) : Option Nat :=
  (text.breakOn? pattern).map fun parts => parts.1.byteSize

/-- The offset of the last occurrence of a pattern. -/
def findLast? (text pattern : Text) : Option Nat :=
  (text.breakOnLast? pattern).map fun parts => parts.1.byteSize

theorem sliceFrom?_append (before behind : Text) :
    sliceFrom? (before ++ behind) before.byteSize = some behind := by
  rw [sliceFrom?, cut?_byteSize_append]
  rfl

theorem sliceTo?_append (before behind : Text) :
    sliceTo? (before ++ behind) before.byteSize = some before := by
  rw [sliceTo?, cut?_byteSize_append]
  rfl

theorem cut?_stop_append (before middle behind : Text) :
    cut? (before ++ (middle ++ behind)) (Span.behind before middle).stop =
      some (before ++ middle, behind) := by
  rw [← List.append_assoc, Span.behind, ← byteSize_append, cut?_byteSize_append]

theorem slice?_append (before middle behind : Text) :
    slice? (before ++ (middle ++ behind)) (Span.behind before middle) = some middle := by
  rw [slice?, sliceTo?, cut?_stop_append]
  exact sliceFrom?_append before middle

theorem replaceRange?_append (before middle behind replacement : Text) :
    replaceRange? (before ++ (middle ++ behind)) (Span.behind before middle) replacement =
      some (before ++ (replacement ++ behind)) := by
  rw [replaceRange?, cut?_stop_append]
  change (sliceTo? (before ++ middle) before.byteSize >>= _) = _
  rw [sliceTo?_append]
  rfl

end Text

namespace Offset

/-- How far an offset lies behind another one. -/
def minus? (stop start : Nat) : Option Nat :=
  if start ≤ stop then some (stop - start) else none

theorem minus?_add (start width : Nat) : minus? (start + width) start = some width := by
  rw [minus?, if_pos (Nat.le_add_right start width), Nat.add_sub_cancel_left]

theorem minus?_byteSize_append (front behind : Text) :
    minus? (Text.byteSize (front ++ behind)) behind.byteSize = some front.byteSize := by
  rw [Text.byteSize_append, Nat.add_comm, minus?_add]

/-- A loop over a text moves forward from an offset to the next one. -/
abbrev IsAhead (text : Text) (position next : Nat) : Prop :=
  position < next ∧ next ≤ text.byteSize

theorem isAhead_append
    {middle : Text}
    (nonempty : middle ≠ [])
    (before behind : Text) :
    IsAhead (before ++ (middle ++ behind)) before.byteSize (before ++ middle).byteSize := by
  have positive : 0 < middle.byteSize :=
    Nat.pos_of_ne_zero fun empty => nonempty (Text.eq_nil_of_byteSize_eq_zero empty)
  simp only [IsAhead, Text.byteSize_append]
  omega

end Offset

/-- A range counted from an offset on. -/
def Span.shift (span : Span) (offset : Nat) : Span :=
  ⟨offset + span.start, offset + span.stop⟩

/-! ## The ranges of phrases -/

namespace Form

variable {α : Type}

/-- The ranges of the occurrences of a form are in order and do not overlap. -/
theorem pairwise_span_occurrences (form : Form α) (text : Text) :
    (form.occurrences text).Pairwise fun first second =>
      (Span.behind first.before (form.write first.phrase)).stop ≤
        (Span.behind second.before (form.write second.phrase)).start := by
  refine (form.pairwise_occurrencesFrom [] _).imp fun {first second} ordered => ?_
  obtain ⟨middle, before_eq⟩ := ordered
  rw [Span.behind, Span.behind, ← before_eq, Text.byteSize_append, Text.byteSize_append]
  exact Nat.le_add_right _ _

/-- The range of a phrase is not empty. -/
theorem start_lt_stop (form : Form α) (before : Text) (phrase : α) :
    (Span.behind before (form.write phrase)).start <
      (Span.behind before (form.write phrase)).stop :=
  Nat.lt_add_of_pos_right <| Nat.pos_of_ne_zero fun empty =>
    form.write_ne_nil phrase (Text.eq_nil_of_byteSize_eq_zero empty)

/-! ## The first phrase of a text -/

/-- The first phrase of a form in a text, with its range. -/
def first? (form : Form α) (text : Text) : Option (Span × α) :=
  (form.placed 0 text).head?.map fun (start, phrase) =>
    (⟨start, start + (form.write phrase).byteSize⟩, phrase)

@[simp] theorem first?_nil (form : Form α) : form.first? [] = none := by
  simp [first?, placed, placedFrom]

theorem first?_of_read?
    (form : Form α)
    {text rest : Text}
    {phrase : α}
    (found : form.read? text = some (phrase, rest)) :
    form.first? text = some (⟨0, (form.write phrase).byteSize⟩, phrase) := by
  simp [first?, placed, form.split_of_read? found, placedFrom]

theorem first?_cons_of_read?_eq_none
    (form : Form α)
    {c : Char}
    {tail : Text}
    (notFound : form.read? (c :: tail) = none) :
    form.first? (c :: tail) =
      (form.first? tail).map fun (span, phrase) => (span.shift c.utf8Size, phrase) := by
  have passed : form.placed 0 (c :: tail) = form.placed c.utf8Size tail := by
    rw [placed, form.split_cons_of_read?_eq_none notFound, placedFrom, Nat.zero_add, placed]
  rw [first?, first?, passed, placed_eq_map_occurrences, placed_eq_map_occurrences]
  cases form.occurrences tail with
  | nil => rfl
  | cons occurrence others => simp [Span.shift, Nat.add_assoc]

end Form

/-! ## Computations on offsets -/

/-- A computation on offsets.  It has no result if it cuts a text where it cannot be cut or does not
move forward, and the result may be an error. -/
abbrev Checked (α : Type) := ExceptT CompileError Option α

namespace Checked

variable {α β : Type}

/-- The computation that has a given result. -/
def ofExcept (result : Except CompileError α) : Checked α :=
  ExceptT.mk (some result)

@[simp] theorem liftM_some {ε : Type} (value : α) :
    (liftM (some value) : ExceptT ε Option α) = pure value := rfl

/-- Steps that have results make up a computation that has one. -/
theorem ofExcept_bind (first : Except CompileError α) (next : α → Except CompileError β) :
    ofExcept (first >>= next) = ofExcept first >>= fun value => ofExcept (next value) := by
  cases first <;> rfl

end Checked
end OutputThreading
