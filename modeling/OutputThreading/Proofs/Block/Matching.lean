import OutputThreading.Proofs.Marker.Placement

/-!
# The matching end of a block

A block is closed by the first marker with which the end statements outnumber the openers by one,
counted from behind its own opener.  Closing a block with a stack finds this marker
(`Block.close_eq_ok_iff`), and if there is none it blames the last opener that no marker closes
(`Block.blames_of_close_eq_error`).
-/

namespace OutputThreading

/-- The marker opens a block. -/
def Marker.isOpener : Marker → Bool
  | .opens _ => true
  | .closes => false

namespace Block

/-! ## Counting markers -/

/-- By how many the end statements outnumber the openers. -/
def excess (markers : List Marker) : Int :=
  markers.count .closes - markers.countP Marker.isOpener

@[simp] theorem excess_nil : excess [] = 0 := rfl

@[simp] theorem excess_opens (keyword : Keyword) (markers : List Marker) :
    excess (.opens keyword :: markers) = excess markers - 1 := by
  simp only [excess, List.count_cons, List.countP_cons, Marker.isOpener, beq_iff_eq, reduceCtorEq,
    if_true, if_false]
  omega

@[simp] theorem excess_closes (markers : List Marker) :
    excess (.closes :: markers) = excess markers + 1 := by
  simp only [excess, List.count_cons, List.countP_cons, Marker.isOpener, beq_iff_eq, if_true,
    Bool.false_eq_true, if_false]
  omega

/-- The end statements outnumber the openers by `level`, with the last of the markers and not
before. -/
def FirstExcess (level : Int) (markers : List Marker) : Prop :=
  excess markers = level ∧
    ∀ shorter, shorter <+: markers → shorter ≠ markers → excess shorter ≠ level

/-- The markers close the block that is opened in front of them: with one of them the end statements
outnumber the openers by one. -/
def ClosedWithin (markers : List Marker) : Prop :=
  ∃ inside, inside <+: markers ∧ excess inside = 1

/-- Every block that the markers open is closed by the markers behind its opener. -/
def AllClosed (markers : List Marker) : Prop :=
  ∀ front keyword rest, markers = front ++ .opens keyword :: rest → ClosedWithin rest

instance (level : Int) (markers : List Marker) : Decidable (FirstExcess level markers) :=
  decidable_of_iff
    (excess markers = level ∧
      ∀ shorter ∈ markers.inits, shorter ≠ markers → excess shorter ≠ level)
    (by simp only [FirstExcess, List.mem_inits])

instance (markers : List Marker) : Decidable (ClosedWithin markers) :=
  decidable_of_iff (∃ inside ∈ markers.inits, excess inside = 1)
    (by simp only [ClosedWithin, List.mem_inits])

theorem excess_ne_of_prefix_cons
    {level : Int}
    {marker : Marker}
    {markers shorter : List Marker}
    (first : FirstExcess level (marker :: markers))
    (start : shorter <+: markers)
    (proper : shorter ≠ markers) :
    excess (marker :: shorter) ≠ level :=
  first.2 (marker :: shorter) ((List.prefix_cons_inj marker).mpr start)
    fun same => proper (List.cons.inj same).2

/-- The first excess over as many inner blocks as are open is where they and the block around them
are closed. -/
theorem closes_iff_firstExcess {depth : Nat} {markers : List Marker} :
    Closes depth markers ↔ FirstExcess (depth + 1) markers := by
  constructor
  · intro closed
    induction closed with
    | last =>
        refine ⟨rfl, fun shorter start proper => ?_⟩
        rcases List.prefix_cons_iff.mp start with rfl | ⟨rest, rfl, none⟩
        · simp
        · rw [List.prefix_nil.mp none] at proper
          exact absurd rfl proper
    | @opens keyword depth markers others inductionHypothesis =>
        obtain ⟨whole, before⟩ := inductionHypothesis
        refine ⟨by rw [excess_opens, whole]; push_cast; omega, fun shorter start proper => ?_⟩
        rcases List.prefix_cons_iff.mp start with rfl | ⟨rest, rfl, restStart⟩
        · rw [excess_nil]
          omega
        · have other := before rest restStart fun same => proper (by rw [same])
          rw [excess_opens]
          push_cast at other
          omega
    | @closes depth markers others inductionHypothesis =>
        obtain ⟨whole, before⟩ := inductionHypothesis
        refine ⟨by rw [excess_closes, whole]; push_cast; omega, fun shorter start proper => ?_⟩
        rcases List.prefix_cons_iff.mp start with rfl | ⟨rest, rfl, restStart⟩
        · rw [excess_nil]
          push_cast
          omega
        · have other := before rest restStart fun same => proper (by rw [same])
          rw [excess_closes]
          push_cast
          omega
  · intro first
    induction markers generalizing depth with
    | nil =>
        have none := first.1
        rw [excess_nil] at none
        omega
    | cons marker markers inductionHypothesis =>
        cases marker with
        | opens keyword =>
            refine .opens keyword (inductionHypothesis ⟨?_, fun shorter start proper => ?_⟩)
            · have whole := first.1
              rw [excess_opens] at whole
              push_cast
              omega
            · have other := excess_ne_of_prefix_cons first start proper
              rw [excess_opens] at other
              push_cast
              omega
        | closes =>
            cases depth with
            | zero =>
                -- one end statement is enough
                have only : [Marker.closes] = .closes :: markers := by
                  by_contra more
                  exact first.2 [.closes] (by simp) more (by simp)
                rw [← only]
                exact .last
            | succ depth =>
                refine .closes (inductionHypothesis ⟨?_, fun shorter start proper => ?_⟩)
                · have whole := first.1
                  rw [excess_closes] at whole
                  push_cast at whole
                  omega
                · have other := excess_ne_of_prefix_cons first start proper
                  rw [excess_closes] at other
                  push_cast at other
                  omega

theorem FirstExcess.eq_of_prefix
    {level : Int}
    {first second whole : List Marker}
    (firstExcess : FirstExcess level first)
    (secondExcess : FirstExcess level second)
    (firstStart : first <+: whole)
    (secondStart : second <+: whole) :
    first = second := by
  by_contra different
  rcases List.prefix_or_prefix_of_prefix firstStart secondStart with inner | inner
  · exact secondExcess.2 first inner different firstExcess.1
  · exact firstExcess.2 second inner (Ne.symm different) secondExcess.1

/-! ## Blocks that stay open -/

theorem AllClosed.tail
    {marker : Marker}
    {markers : List Marker}
    (closed : AllClosed (marker :: markers)) :
    AllClosed markers :=
  fun front keyword rest equal => closed (marker :: front) keyword rest (by rw [equal]; rfl)

theorem allClosed_nil : AllClosed [] := by
  intro front keyword rest equal
  simp at equal

theorem allClosed_opens
    {keyword : Keyword}
    {markers : List Marker}
    (first : ClosedWithin markers)
    (others : AllClosed markers) :
    AllClosed (.opens keyword :: markers) := by
  intro front otherKeyword rest equal
  cases front with
  | nil =>
      rw [← (List.cons.inj equal).2]
      exact first
  | cons marker front => exact others front otherKeyword rest (List.cons.inj equal).2

theorem allClosed_closes {markers : List Marker} (others : AllClosed markers) :
    AllClosed (.closes :: markers) := by
  intro front keyword rest equal
  cases front with
  | nil => cases (List.cons.inj equal).1
  | cons marker front => exact others front keyword rest (List.cons.inj equal).2

/-- If all openers are closed, the end statements left over show in the total count. -/
theorem AllClosed.exists_prefix_iff
    {markers : List Marker}
    (closed : AllClosed markers) :
    0 ≤ excess markers ∧
      ∀ level : Int, 1 ≤ level →
        ((∃ inside, inside <+: markers ∧ excess inside = level) ↔ level ≤ excess markers) := by
  induction markers with
  | nil =>
      refine ⟨Int.le_refl 0, fun level positive => ?_⟩
      rw [excess_nil]
      refine iff_of_false ?_ (by omega)
      rintro ⟨inside, start, reached⟩
      rw [List.prefix_nil.mp start, excess_nil] at reached
      omega
  | cons marker markers inductionHypothesis =>
      obtain ⟨nonnegative, reaches⟩ := inductionHypothesis closed.tail
      -- an initial part is empty or starts with the first marker
      have split (level : Int) (positive : 1 ≤ level) :
          (∃ inside, inside <+: marker :: markers ∧ excess inside = level) ↔
            ∃ inside, inside <+: markers ∧ excess (marker :: inside) = level := by
        constructor
        · rintro ⟨inside, start, reached⟩
          rcases List.prefix_cons_iff.mp start with rfl | ⟨rest, rfl, restStart⟩
          · rw [excess_nil] at reached
            omega
          · exact ⟨rest, restStart, reached⟩
        · rintro ⟨inside, start, reached⟩
          exact ⟨marker :: inside, (List.prefix_cons_inj marker).mpr start, reached⟩
      cases marker with
      | opens keyword =>
          have own : 1 ≤ excess markers :=
            (reaches 1 (Int.le_refl 1)).mp (closed [] keyword markers rfl)
          refine ⟨by rw [excess_opens]; omega, fun level positive => ?_⟩
          have later := reaches (level + 1) (by omega)
          have shifted (inside : List Marker) :
              excess (.opens keyword :: inside) = level ↔ excess inside = level + 1 := by
            rw [excess_opens]
            omega
          rw [split level positive, excess_opens]
          simp only [shifted, later]
          omega
      | closes =>
          refine ⟨by rw [excess_closes]; omega, fun level positive => ?_⟩
          rw [split level positive, excess_closes]
          by_cases one : level = 1
          · refine iff_of_true ⟨[], List.nil_prefix, ?_⟩ (by omega)
            rw [excess_closes, excess_nil, one]
            rfl
          · have later := reaches (level - 1) (by omega)
            have shifted (inside : List Marker) :
                excess (.closes :: inside) = level ↔ excess inside = level - 1 := by
              rw [excess_closes]
              omega
            simp only [shifted, later]
            omega

/-! ## Closing with a stack -/

theorem close_append
    {line : Nat}
    {innermost : OpenBlock}
    {outer : List OpenBlock}
    {pieces inside behind : List (Piece Marker)}
    (closed : close line innermost outer pieces = .ok (inside, behind))
    (more : List (Piece Marker)) :
    close line innermost outer (pieces ++ more) = .ok (inside, behind ++ more) := by
  fun_induction close line innermost outer pieces generalizing inside behind with
  | case1 => cases closed
  | case2 line innermost outer c pieces inductionHypothesis =>
      obtain ⟨⟨part, rest⟩, found, equal⟩ := bind_eq_ok_iff.mp closed
      obtain ⟨rfl, rfl⟩ := Prod.mk.inj (pure_eq_ok_iff.mp equal)
      rw [List.cons_append, close]
      exact bind_eq_ok_iff.mpr ⟨_, inductionHypothesis found, rfl⟩
  | case3 line innermost outer keyword pieces inductionHypothesis =>
      obtain ⟨⟨part, rest⟩, found, equal⟩ := bind_eq_ok_iff.mp closed
      obtain ⟨rfl, rfl⟩ := Prod.mk.inj (pure_eq_ok_iff.mp equal)
      rw [List.cons_append, close]
      exact bind_eq_ok_iff.mpr ⟨_, inductionHypothesis found, rfl⟩
  | case4 line innermost pieces =>
      obtain ⟨rfl, rfl⟩ := Prod.mk.inj (Except.ok.inj closed)
      rfl
  | case5 line innermost pieces next outer inductionHypothesis =>
      obtain ⟨⟨part, rest⟩, found, equal⟩ := bind_eq_ok_iff.mp closed
      obtain ⟨rfl, rfl⟩ := Prod.mk.inj (pure_eq_ok_iff.mp equal)
      rw [List.cons_append, close]
      exact bind_eq_ok_iff.mpr ⟨_, inductionHypothesis found, rfl⟩

/-- What stands behind the end of a block has no say in where it ends. -/
theorem close_inside
    {line : Nat}
    {innermost : OpenBlock}
    {outer : List OpenBlock}
    {pieces inside behind : List (Piece Marker)}
    (closed : close line innermost outer pieces = .ok (inside, behind)) :
    close line innermost outer inside = .ok (inside, []) := by
  fun_induction close line innermost outer pieces generalizing inside behind with
  | case1 => cases closed
  | case2 line innermost outer c pieces inductionHypothesis =>
      obtain ⟨⟨part, rest⟩, found, equal⟩ := bind_eq_ok_iff.mp closed
      obtain ⟨rfl, rfl⟩ := Prod.mk.inj (pure_eq_ok_iff.mp equal)
      rw [close]
      exact bind_eq_ok_iff.mpr ⟨_, inductionHypothesis found, rfl⟩
  | case3 line innermost outer keyword pieces inductionHypothesis =>
      obtain ⟨⟨part, rest⟩, found, equal⟩ := bind_eq_ok_iff.mp closed
      obtain ⟨rfl, rfl⟩ := Prod.mk.inj (pure_eq_ok_iff.mp equal)
      rw [close]
      exact bind_eq_ok_iff.mpr ⟨_, inductionHypothesis found, rfl⟩
  | case4 line innermost pieces =>
      obtain ⟨rfl, rfl⟩ := Prod.mk.inj (Except.ok.inj closed)
      rfl
  | case5 line innermost pieces next outer inductionHypothesis =>
      obtain ⟨⟨part, rest⟩, found, equal⟩ := bind_eq_ok_iff.mp closed
      obtain ⟨rfl, rfl⟩ := Prod.mk.inj (pure_eq_ok_iff.mp equal)
      rw [close]
      exact bind_eq_ok_iff.mpr ⟨_, inductionHypothesis found, rfl⟩

/-- A block is closed by the first marker with which the end statements outnumber the openers by one
more than there are blocks inside of it that are open already. -/
theorem close_eq_ok_iff
    (line : Nat)
    (innermost : OpenBlock)
    (outer : List OpenBlock)
    (pieces inside behind : List (Piece Marker)) :
    close line innermost outer pieces = .ok (inside, behind) ↔
      pieces = inside ++ behind ∧
        FirstExcess (outer.length + 1) (inside.filterMap Piece.phrase?) ∧
        inside.getLast? = some (.phrase .closes) := by
  rw [← closes_iff_firstExcess, ← close_eq_ok_self_iff line innermost outer inside]
  constructor
  · intro closed
    exact ⟨(append_eq_of_close closed).symm, close_inside closed⟩
  · rintro ⟨rfl, closed⟩
    exact close_append closed behind

/-! ## Blocks that are never closed -/

/-- A step that cannot fail is not the one that fails. -/
theorem eq_error_of_bind
    {ε α β : Type}
    {first : Except ε α}
    {next : α → Except ε β}
    {error : ε}
    (failed : (first >>= next) = .error error)
    (continues : ∀ value, ∃ result, next value = .ok result) :
    first = .error error := by
  cases first with
  | error other =>
      cases failed
      rfl
  | ok value =>
      obtain ⟨result, equal⟩ := continues value
      rw [show (Except.ok value >>= next) = next value from rfl, equal] at failed
      cases failed

/-- An unclosed block is not closed by any of the markers. -/
theorem excess_ne_of_close_eq_error
    {line : Nat}
    {innermost blamed : OpenBlock}
    {outer : List OpenBlock}
    {pieces : List (Piece Marker)}
    (failed : close line innermost outer pieces = .error blamed)
    {inside : List Marker}
    (start : inside <+: pieces.filterMap Piece.phrase?) :
    excess inside ≠ outer.length + 1 := by
  induction pieces generalizing line innermost outer inside with
  | nil =>
      rw [List.prefix_nil.mp start, excess_nil]
      omega
  | cons piece pieces inductionHypothesis =>
      rcases piece with c | keyword | _
      · exact inductionHypothesis (eq_error_of_bind failed fun _ => ⟨_, rfl⟩) start
      · rw [List.filterMap_cons_some (Piece.phrase?_phrase _)] at start
        rcases List.prefix_cons_iff.mp start with rfl | ⟨rest, rfl, restStart⟩
        · rw [excess_nil]
          omega
        · have never := inductionHypothesis (eq_error_of_bind failed fun _ => ⟨_, rfl⟩) restStart
          rw [List.length_cons] at never
          rw [excess_opens]
          push_cast at never
          omega
      · cases outer with
        | nil => cases failed
        | cons next outer =>
            rw [List.filterMap_cons_some (Piece.phrase?_phrase _)] at start
            rw [List.length_cons]
            push_cast
            rcases List.prefix_cons_iff.mp start with rfl | ⟨rest, rfl, restStart⟩
            · rw [excess_nil]
              omega
            · have never :=
                inductionHypothesis (eq_error_of_bind failed fun _ => ⟨_, rfl⟩) restStart
              rw [excess_closes]
              omega

/-- The innermost block that stays open is `blamed`: the last opener among the markers that none of
them closes, or, if all of them are closed, one of the blocks that were `opened` before. -/
def Blames
    (opened : List OpenBlock)
    (markers : List (Nat × Marker))
    (blamed : OpenBlock) : Prop :=
  (∃ front keyword line rest, markers = front ++ (line, .opens keyword) :: rest ∧
    ¬ClosedWithin (rest.map Prod.snd) ∧ AllClosed (rest.map Prod.snd) ∧
    blamed = ⟨keyword, line⟩) ∨
  (AllClosed (markers.map Prod.snd) ∧
    ∃ passed : Nat, excess (markers.map Prod.snd) = passed ∧ opened[passed]? = some blamed)

/-- Of the blocks opened before, the first one may be opened by the first marker instead. -/
theorem Blames.opens
    {opened : List OpenBlock}
    {keyword : Keyword}
    {line : Nat}
    {markers : List (Nat × Marker)}
    {blamed : OpenBlock}
    (blames : Blames (⟨keyword, line⟩ :: opened) markers blamed) :
    Blames opened ((line, .opens keyword) :: markers) blamed := by
  rcases blames with ⟨front, other, otherLine, rest, equal, unclosed, closed, blamed_eq⟩ |
    ⟨closed, passed, count, member⟩
  · exact .inl ⟨(line, .opens keyword) :: front, other, otherLine, rest, by rw [equal]; rfl,
      unclosed, closed, blamed_eq⟩
  · have reaches := closed.exists_prefix_iff.2 1 (Int.le_refl 1)
    cases passed with
    | zero =>
        -- no end statement is left over for the first marker
        refine .inl ⟨[], keyword, line, markers, rfl, fun own => ?_, closed,
          (Option.some.inj member).symm⟩
        have := reaches.mp own
        omega
    | succ passed =>
        refine .inr ⟨allClosed_opens (reaches.mpr ?_) closed, passed, ?_, member⟩
        · rw [count]
          push_cast
          omega
        · rw [List.map_cons, excess_opens, count]
          push_cast
          omega

/-- An end statement in front closes one more of the blocks opened before. -/
theorem Blames.closes
    {opened : List OpenBlock}
    {line : Nat}
    {markers : List (Nat × Marker)}
    {blamed : OpenBlock}
    (blames : Blames opened markers blamed)
    (next : OpenBlock) :
    Blames (next :: opened) ((line, .closes) :: markers) blamed := by
  rcases blames with ⟨front, other, otherLine, rest, equal, unclosed, closed, blamed_eq⟩ |
    ⟨closed, passed, count, member⟩
  · exact .inl ⟨(line, .closes) :: front, other, otherLine, rest, by rw [equal]; rfl, unclosed,
      closed, blamed_eq⟩
  · refine .inr ⟨allClosed_closes closed, passed + 1, ?_, member⟩
    rw [List.map_cons, excess_closes, count]
    push_cast
    rfl

theorem linedFrom_phrase (line : Nat) (marker : Marker) (pieces : List (Piece Marker)) :
    Marker.form.linedFrom line (.phrase marker :: pieces) =
      (line, marker) :: Marker.form.linedFrom line pieces := by
  have inline : (Marker.form.write marker).breaks = 0 := by
    rcases marker with keyword | _
    · cases keyword <;> rfl
    · rfl
  rw [Form.linedFrom, inline, Nat.add_zero]

/-- When a block is never closed, the innermost block that stays open is to blame. -/
theorem blames_of_close_eq_error
    {line : Nat}
    {innermost blamed : OpenBlock}
    {outer : List OpenBlock}
    {pieces : List (Piece Marker)}
    (failed : close line innermost outer pieces = .error blamed) :
    Blames (innermost :: outer) (Marker.form.linedFrom line pieces) blamed := by
  induction pieces generalizing line innermost outer with
  | nil =>
      obtain rfl := Except.error.inj failed
      exact .inr ⟨allClosed_nil, 0, rfl, rfl⟩
  | cons piece pieces inductionHypothesis =>
      rcases piece with c | keyword | _
      · exact inductionHypothesis (eq_error_of_bind failed fun _ => ⟨_, rfl⟩)
      · rw [linedFrom_phrase]
        exact (inductionHypothesis (eq_error_of_bind failed fun _ => ⟨_, rfl⟩)).opens
      · cases outer with
        | nil => cases failed
        | cons next outer =>
            rw [linedFrom_phrase]
            exact (inductionHypothesis (eq_error_of_bind failed fun _ => ⟨_, rfl⟩)).closes innermost

end Block

/-! ## The end of a block behind a cursor -/

namespace Cursor

theorem map_fst_markers (cursor : Cursor) :
    cursor.markers.map Prod.fst = Marker.form.phrases cursor.behind := by
  rw [markers_eq_map_occurrences, List.map_map, ← Form.map_phrase_occurrences]
  rfl

/-- The lines of the markers are those of the places where they stand. -/
theorem linedFrom_split_behind (cursor : Cursor) :
    Marker.form.linedFrom cursor.line (Marker.form.split cursor.behind) =
      cursor.markers.map fun (marker, span) =>
        ((cursor.before ++ cursor.behind).lineAt span.start, marker) := by
  have lined := Marker.form.linedFrom_add_breaks cursor.line [] (Marker.form.split cursor.behind)
  rw [Text.breaks_nil, Nat.add_zero] at lined
  rw [lined, markers_eq_map_occurrences, List.map_map]
  refine List.map_congr_left fun occurrence member => ?_
  have whole := Marker.form.before_append_write_append_after member
  have text_eq : cursor.before ++ cursor.behind = (cursor.before ++ occurrence.before) ++
      (Marker.form.write occurrence.phrase ++ occurrence.after) := by
    rw [← whole]
    simp only [List.append_assoc]
  simp only [Function.comp_apply, Span.behind]
  rw [text_eq, Text.lineAt_byteSize_append, Text.breaks_append, line, Nat.add_assoc]

/-- The markers inside of pieces that end with one are those up to the place where the pieces end. -/
theorem exists_markers_eq_of_split_eq
    {cursor : Cursor}
    {inside behind : List (Piece Marker)}
    {last : Marker}
    (split : Marker.form.split cursor.behind = inside ++ behind)
    (ends : inside.getLast? = some (.phrase last)) :
    ∃ front span rest, cursor.markers = front ++ (last, span) :: rest ∧
      (front ++ [(last, span)]).map Prod.fst = inside.filterMap Piece.phrase? ∧
      span.stop = cursor.offset + (Marker.form.join inside).byteSize := by
  obtain ⟨front, rfl⟩ := List.getLast?_eq_some_iff.mp ends
  have placed : Marker.form.placed cursor.offset cursor.behind =
      Marker.form.placedFrom cursor.offset front ++
        (cursor.offset + (Marker.form.join front).byteSize, last) ::
          Marker.form.placedFrom (cursor.offset + (Marker.form.join (front ++ [.phrase last])).byteSize)
            behind := by
    rw [Form.placed, split, Form.placedFrom_append, Form.placedFrom_append, List.append_assoc]
    rfl
  have markers_eq := congrArg (List.map fun found : Nat × Marker =>
    (found.2, Span.mk found.1 (found.1 + found.2.text.byteSize))) placed
  rw [List.map_append, List.map_cons] at markers_eq
  refine ⟨_, _, _, markers_eq, ?_, ?_⟩
  · rw [List.map_append, List.map_map, List.filterMap_append,
      ← Form.map_snd_placedFrom Marker.form cursor.offset front]
    rfl
  · rw [Form.join_append, Text.byteSize_append]
    simp only [Form.join_cons, Piece.text_phrase, Form.join_nil, List.append_nil, Nat.add_assoc]
    rfl

theorem blockEnd_eq_of_close
    {cursor : Cursor}
    {opened : OpenBlock}
    {inside behind : List (Piece Marker)}
    (closed : Block.close cursor.line opened [] (Marker.form.split cursor.behind) =
      .ok (inside, behind)) :
    cursor.blockEnd opened = .ok (cursor.offset + (Marker.form.join inside).byteSize) := by
  rw [blockEnd, Block.remainder, closed]
  rfl

theorem blockEnd_eq_of_close_eq_error
    {cursor : Cursor}
    {opened blamed : OpenBlock}
    (failed : Block.close cursor.line opened [] (Marker.form.split cursor.behind) =
      .error blamed) :
    cursor.blockEnd opened = .error blamed := by
  rw [blockEnd, Block.remainder, failed]
  rfl

/-- The pieces that close a block end with the first marker behind its opener with which the end
statements outnumber the openers by one. -/
theorem exists_firstExcess_of_close
    {cursor : Cursor}
    {opened : OpenBlock}
    {inside behind : List (Piece Marker)}
    (closed : Block.close cursor.line opened [] (Marker.form.split cursor.behind) =
      .ok (inside, behind)) :
    ∃ front last rest, cursor.markers = front ++ last :: rest ∧
      Block.FirstExcess 1 ((front ++ [last]).map Prod.fst) ∧
      last.2.stop = cursor.offset + (Marker.form.join inside).byteSize := by
  obtain ⟨split, first, ends⟩ := (Block.close_eq_ok_iff _ _ _ _ _ _).mp closed
  obtain ⟨front, span, rest, markers_eq, phrases, stop⟩ := exists_markers_eq_of_split_eq split ends
  rw [← phrases] at first
  exact ⟨front, (.closes, span), rest, markers_eq, first, stop⟩

/-- A block ends with the first marker behind its opener with which the end statements outnumber the
openers by one. -/
theorem blockEnd_eq_ok_iff (cursor : Cursor) (opened : OpenBlock) (stop : Nat) :
    cursor.blockEnd opened = .ok stop ↔
      ∃ inside last behind, cursor.markers = inside ++ last :: behind ∧
        Block.FirstExcess 1 ((inside ++ [last]).map Prod.fst) ∧ stop = last.2.stop := by
  cases result : Block.close cursor.line opened [] (Marker.form.split cursor.behind) with
  | error blamed =>
      rw [blockEnd_eq_of_close_eq_error result]
      refine iff_of_false (by simp) ?_
      rintro ⟨inside, last, behind, markers_eq, ⟨reached, _⟩, _⟩
      refine Block.excess_ne_of_close_eq_error result ?_ reached
      rw [← Form.phrases, ← map_fst_markers, markers_eq]
      exact ⟨behind.map Prod.fst, by simp⟩
  | ok parts =>
      obtain ⟨pieces, others⟩ := parts
      obtain ⟨front, found, rest, markers_eq, first, stop_eq⟩ := exists_firstExcess_of_close result
      rw [blockEnd_eq_of_close result, ← stop_eq]
      constructor
      · rintro equal
        exact ⟨front, found, rest, markers_eq, first, (Except.ok.inj equal).symm⟩
      · rintro ⟨inside, last, behind, otherMarkers_eq, otherFirst, rfl⟩
        -- there is only one first marker, so both lists of markers are the same part
        have whole : (front ++ [found]) ++ rest = (inside ++ [last]) ++ behind := by
          rw [List.append_cons] at markers_eq otherMarkers_eq
          rw [← markers_eq, ← otherMarkers_eq]
        have sameKinds : (front ++ [found]).map Prod.fst = (inside ++ [last]).map Prod.fst :=
          first.eq_of_prefix otherFirst
            (List.IsPrefix.map Prod.fst ⟨rest, whole⟩)
            (List.IsPrefix.map Prod.fst (List.prefix_append _ behind))
        have sameLength := congrArg List.length sameKinds
        rw [List.length_map, List.length_map] at sameLength
        obtain ⟨same, _⟩ := List.append_inj whole sameLength
        obtain ⟨rfl, _⟩ := List.cons.inj (List.append_inj_right' same rfl)
        rfl

/-- If no marker closes a block, the last opener behind it that is never closed is to blame, and the
block itself if every opener is closed. -/
theorem exists_blockEnd_eq_error
    (cursor : Cursor)
    (opened : OpenBlock)
    (unclosed : ¬Block.ClosedWithin (cursor.markers.map Prod.fst)) :
    ∃ blamed, cursor.blockEnd opened = .error blamed ∧
      ((∃ front keyword span rest, cursor.markers = front ++ (.opens keyword, span) :: rest ∧
          ¬Block.ClosedWithin (rest.map Prod.fst) ∧ Block.AllClosed (rest.map Prod.fst) ∧
          blamed = ⟨keyword, (cursor.before ++ cursor.behind).lineAt span.start⟩) ∨
        (Block.AllClosed (cursor.markers.map Prod.fst) ∧ blamed = opened)) := by
  cases result : Block.close cursor.line opened [] (Marker.form.split cursor.behind) with
  | ok parts =>
      obtain ⟨front, last, rest, markers_eq, ⟨reached, _⟩, _⟩ := exists_firstExcess_of_close result
      refine absurd ⟨_, ?_, reached⟩ unclosed
      rw [markers_eq]
      exact ⟨rest.map Prod.fst, by simp⟩
  | error blamed =>
      refine ⟨blamed, blockEnd_eq_of_close_eq_error result, ?_⟩
      have blames := Block.blames_of_close_eq_error result
      rw [linedFrom_split_behind] at blames
      have forget (markers : List (Marker × Span)) :
          (markers.map fun (marker, span) =>
            ((cursor.before ++ cursor.behind).lineAt span.start, marker)).map Prod.snd =
              markers.map Prod.fst := by
        rw [List.map_map]
        rfl
      rcases blames with ⟨front, keyword, line, rest, equal, stays, closed, blamed_eq⟩ |
        ⟨closed, passed, count, member⟩
      · left
        obtain ⟨before, others, markers_eq, rfl, others_eq⟩ := List.map_eq_append_iff.mp equal
        obtain ⟨⟨marker, span⟩, behind, rfl, opener_eq, rfl⟩ := List.map_eq_cons_iff.mp others_eq
        obtain ⟨rfl, rfl⟩ := Prod.mk.inj opener_eq
        rw [forget] at stays closed
        exact ⟨before, keyword, span, behind, markers_eq, stays, closed, blamed_eq⟩
      · right
        rw [forget] at closed count
        refine ⟨closed, ?_⟩
        have most : ¬1 ≤ Block.excess (cursor.markers.map Prod.fst) := fun least =>
          unclosed ((closed.exists_prefix_iff.2 1 (Int.le_refl 1)).mpr least)
        obtain rfl : passed = 0 := by omega
        exact (Option.some.inj member).symm

/-- The end of a block, from any place behind its opener.  The markers that count are all that stand
behind the place, one after the other; the block ends with the first of them with which the end
statements outnumber the openers by one; if there is none, the last opener that is never closed is to
blame, or the block itself. -/
theorem blockEnd_is_first_excess
    {text : Text}
    {offset : Nat}
    {cursor : Cursor}
    (placed : at? text offset = some cursor)
    (keyword : Keyword)
    (start : Nat) :
    (∀ marker span, (marker, span) ∈ cursor.markers ↔
      marker.StandsAt text span ∧ offset ≤ span.start) ∧
    (cursor.markers.Pairwise fun first second => first.2.stop ≤ second.2.start) ∧
    (∀ marker span others, cursor.markers = (marker, span) :: others →
      ∃ next, at? text span.stop = some next ∧ next.markers = others) ∧
    (∀ stop, cursor.blockEnd ⟨keyword, text.lineAt start⟩ = .ok stop ↔
      ∃ inside last behind, cursor.markers = inside ++ last :: behind ∧
        Block.FirstExcess 1 ((inside ++ [last]).map Prod.fst) ∧ stop = last.2.stop) ∧
    (¬Block.ClosedWithin (cursor.markers.map Prod.fst) →
      ∃ blamed, cursor.blockEnd ⟨keyword, text.lineAt start⟩ = .error blamed ∧
        ((∃ front keyword span rest, cursor.markers = front ++ (.opens keyword, span) :: rest ∧
            ¬Block.ClosedWithin (rest.map Prod.fst) ∧ Block.AllClosed (rest.map Prod.fst) ∧
            blamed = ⟨keyword, text.lineAt span.start⟩) ∨
          (Block.AllClosed (cursor.markers.map Prod.fst) ∧
            blamed = ⟨keyword, text.lineAt start⟩))) := by
  obtain ⟨rfl, rfl⟩ := at?_eq_some_iff.mp placed
  refine ⟨cursor.mem_markers_iff, cursor.pairwise_markers, ?_, cursor.blockEnd_eq_ok_iff _,
    cursor.exists_blockEnd_eq_error _⟩
  intro marker span others found
  exact cursor.exists_at?_of_markers_eq_cons found

/-- A loop with a condition inside ends with the second end statement; without it, the loop itself
is to blame, because its condition is closed. -/
theorem blockEnd_is_first_excess_nested :
    let condition : Text :=
      " $a".toList ++ Statement.closing ++ Keyword.opener .if ++ " 1".toList ++ Statement.closing ++
        ['é'] ++ Marker.closer ++ ['\n']
    let unfinished : Text := Keyword.opener .range ++ condition
    (∃ cursor, at? (unfinished ++ Marker.closer ++ ['x']) 7 = some cursor ∧
      cursor.blockEnd ⟨.range, 1⟩ = .ok 37) ∧
    ∃ cursor, at? unfinished 7 = some cursor ∧
      ¬Block.ClosedWithin (cursor.markers.map Prod.fst) ∧
      ∃ blamed, cursor.blockEnd ⟨.range, 1⟩ = .error blamed := by
  intro condition unfinished
  have closed : at? (unfinished ++ Marker.closer ++ ['x']) 7 =
      some ⟨Keyword.opener .range, condition ++ Marker.closer ++ ['x']⟩ := by decide +kernel
  have unclosed : at? unfinished 7 = some ⟨Keyword.opener .range, condition⟩ := by decide +kernel
  refine ⟨⟨_, closed, ?_⟩, ⟨_, unclosed, by decide +kernel, ?_⟩⟩
  · refine ((blockEnd_is_first_excess closed .range 0).2.2.2.1 37).mpr ?_
    exact ⟨[(.opens .if, ⟨12, 16⟩), (.closes, ⟨22, 29⟩)], (.closes, ⟨30, 37⟩), [],
      by decide +kernel, by decide +kernel, rfl⟩
  · obtain ⟨blamed, failed, _⟩ :=
      (blockEnd_is_first_excess unclosed .range 0).2.2.2.2 (by decide +kernel)
    exact ⟨blamed, failed⟩

end Cursor
end OutputThreading
