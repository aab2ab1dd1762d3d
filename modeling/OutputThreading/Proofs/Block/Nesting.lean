import OutputThreading.Proofs.Block.Matching

/-!
# Blocks inside of blocks

An end statement cuts a text in two: what stands behind it has no say in the markers in front of it
(`Marker.split_append_closer`).  So a text that is one block is found as a block wherever it stands
(`Cursor.block?_eq_ok_some_iff`), and every opener inside of it opens a block that is closed in
front of its end statement (`Text.IsBlock.exists_inner`).
-/

namespace OutputThreading

/-! ## Text behind an end statement -/

namespace Marker

theorem read?_closer_append (rest : Text) :
    form.read? (closer ++ rest) = some (.closes, rest) := by
  show read? (Marker.closes.text ++ rest) = some (.closes, rest)
  exact read?_eq_some_iff.mpr ⟨rfl, rfl⟩

/-- Behind an end statement the text is searched like a text of its own. -/
theorem split_append_closer (front rest : Text) :
    form.split (front ++ (closer ++ rest)) = form.split (front ++ closer) ++ form.split rest := by
  have cut (behind : Text) : form.split (front ++ (closer ++ behind)) =
      form.split front ++ .phrase .closes :: form.split behind := by
    rw [closer, List.append_assoc, List.append_assoc, split_append_opening, ← List.append_assoc,
      ← List.append_assoc, ← closer, form.split_of_read? (read?_closer_append behind)]
  have alone := cut []
  rw [List.append_nil, Form.split_nil] at alone
  rw [cut, alone, List.append_assoc, List.singleton_append]

theorem join_append_closes (front behind : List (Piece Marker)) :
    form.join (front ++ .phrase .closes :: behind) =
      form.join front ++ (closer ++ form.join behind) := by
  rw [Form.join_append]
  rfl

/-- Pieces that end with an end statement can be cut out of a text: read on their own they are the
same pieces. -/
theorem split_join_of_split_eq_append
    {text : Text}
    {front middle behind : List (Piece Marker)}
    (split_eq : form.split text = front ++ (middle ++ .phrase .closes :: behind)) :
    form.split (form.join middle ++ closer) = middle ++ [.phrase .closes] := by
  have rest_eq := form.split_join_of_split_eq_append split_eq
  rw [join_append_closes, split_append_closer, List.append_cons] at rest_eq
  refine form.eq_of_append_eq_append_of_join_eq rest_eq ?_
  rw [Form.join_split, join_append_closes, Form.join_nil, List.append_nil]

end Marker

/-! ## Blocks and the markers inside of them -/

namespace Block

/-- Behind an opener its own block is open too. -/
theorem Closes.exists_of_append_opens
    {depth : Nat}
    {front rest : List Marker}
    {keyword : Keyword}
    (closed : Closes depth (front ++ .opens keyword :: rest)) :
    ∃ outer, Closes (outer + 1) rest := by
  induction front generalizing depth with
  | nil => exact ⟨depth, closes_opens_iff.mp closed⟩
  | cons marker front inductionHypothesis =>
      cases marker with
      | opens other => exact inductionHypothesis (closes_opens_iff.mp closed)
      | closes =>
          cases depth with
          | zero => simp [closes_zero_iff] at closed
          | succ depth => exact inductionHypothesis (closes_succ_iff.mp closed)

/-- Inner blocks are closed in front of the outer ones. -/
theorem Closes.exists_eq_append
    {depth lower : Nat}
    {markers : List Marker}
    (closed : Closes depth markers)
    (deeper : lower < depth) :
    ∃ inside behind, markers = inside ++ behind ∧
      Closes (depth - lower - 1) inside ∧ Closes lower behind := by
  induction closed with
  | last => omega
  | @opens keyword depth markers others inductionHypothesis =>
      obtain ⟨inside, behind, rfl, first, second⟩ := inductionHypothesis (by omega)
      refine ⟨.opens keyword :: inside, behind, rfl, .opens keyword ?_, second⟩
      rwa [show depth - lower - 1 + 1 = depth + 1 - lower - 1 by omega]
  | @closes depth markers others inductionHypothesis =>
      rcases Nat.lt_or_ge lower depth with less | most
      · obtain ⟨inside, behind, rfl, first, second⟩ := inductionHypothesis less
        refine ⟨.closes :: inside, behind, rfl, ?_, second⟩
        rw [show depth + 1 - lower - 1 = depth - lower - 1 + 1 by omega]
        exact .closes first
      · obtain rfl : lower = depth := by omega
        refine ⟨[.closes], markers, rfl, ?_, others⟩
        rw [show lower + 1 - lower - 1 = 0 by omega]
        exact .last

theorem Closes.exists_eq_concat
    {depth : Nat}
    {markers : List Marker}
    (closed : Closes depth markers) :
    ∃ front, markers = front ++ [.closes] := by
  induction closed with
  | last => exact ⟨[], rfl⟩
  | opens keyword _ inductionHypothesis =>
      obtain ⟨front, rfl⟩ := inductionHypothesis
      exact ⟨.opens keyword :: front, rfl⟩
  | closes _ inductionHypothesis =>
      obtain ⟨front, rfl⟩ := inductionHypothesis
      exact ⟨.closes :: front, rfl⟩

/-- The block of an opener is closed in front of the end of the block around it. -/
theorem Closes.exists_inner
    {depth : Nat}
    {front rest : List Marker}
    {keyword : Keyword}
    (closed : Closes depth (front ++ .opens keyword :: rest)) :
    ∃ inside behind, rest = inside ++ .closes :: behind ∧ Closes 0 (inside ++ [.closes]) ∧
      behind ≠ [] := by
  obtain ⟨outer, opened⟩ := closed.exists_of_append_opens
  obtain ⟨inner, behind, rfl, innerCloses, outerCloses⟩ :=
    opened.exists_eq_append (Nat.lt_succ_self outer)
  rw [show outer + 1 - outer - 1 = 0 by omega] at innerCloses
  obtain ⟨inside, rfl⟩ := innerCloses.exists_eq_concat
  refine ⟨inside, behind, by rw [List.append_assoc]; rfl, innerCloses, ?_⟩
  rintro rfl
  exact not_closes_nil outerCloses

/-- Pieces of a text that start with an opener and close its block make up a block of their own. -/
theorem isBlock_of_split_eq_append
    {text : Text}
    {keyword : Keyword}
    {front inside behind : List (Piece Marker)}
    (split_eq : Marker.form.split text =
      front ++ .phrase (.opens keyword) :: (inside ++ .phrase .closes :: behind))
    (closes : Closes 0 (inside.filterMap Piece.phrase? ++ [.closes])) :
    Text.IsBlock (keyword.opener ++ (Marker.form.join inside ++ Marker.closer)) := by
  rw [← List.cons_append] at split_eq
  refine (Text.isBlock_iff _).mpr ⟨keyword, inside ++ [.phrase .closes], ?_, ?_, by simp⟩
  · rw [← List.append_assoc]
    exact Marker.split_join_of_split_eq_append split_eq
  · rw [List.filterMap_append]
    exact closes

/-- The pieces of a block, and its text read off them. -/
theorem exists_split_eq_of_isBlock {block : Text} (whole : block.IsBlock) :
    ∃ keyword inside,
      Marker.form.split block = .phrase (.opens keyword) :: (inside ++ [.phrase .closes]) ∧
      Closes 0 (inside.filterMap Piece.phrase? ++ [.closes]) ∧
      block = keyword.opener ++ Marker.form.join inside ++ Marker.closer := by
  obtain ⟨keyword, pieces, split_eq, closes, ends⟩ := block.isBlock_iff.mp whole
  obtain ⟨inside, rfl⟩ := List.getLast?_eq_some_iff.mp ends
  rw [List.filterMap_append] at closes
  refine ⟨keyword, inside, split_eq, closes, ?_⟩
  rw [← Marker.form.join_split block, split_eq, Form.join_cons, Marker.join_append_closes,
    Form.join_nil, List.append_nil, ← List.append_assoc]
  rfl

/-- Closing the block of an opener cuts a block out of the text. -/
theorem isBlock_of_close
    {text : Text}
    {keyword : Keyword}
    {line : Nat}
    {opened : OpenBlock}
    {front pieces inside behind : List (Piece Marker)}
    (split_eq : Marker.form.split text = front ++ .phrase (.opens keyword) :: pieces)
    (closed : close line opened [] pieces = .ok (inside, behind)) :
    Text.IsBlock (keyword.opener ++ Marker.form.join inside) := by
  obtain ⟨closes, _⟩ := (close_eq_ok_self_iff _ _ _ _).mp (close_inside closed)
  obtain ⟨within, rfl⟩ := exists_inside_eq_of_close closed
  rw [List.filterMap_append] at closes
  rw [← append_eq_of_close closed, List.append_assoc, List.singleton_append] at split_eq
  rw [Marker.join_append_closes, Form.join_nil, List.append_nil]
  exact isBlock_of_split_eq_append split_eq closes

/-- A text starts with a block exactly if a text that is one block stands at its start. -/
theorem leading?_eq_ok_some_iff (line : Nat) (text block : Text) :
    leading? line text = .ok (some block) ↔ block.IsBlock ∧ block <+: text := by
  constructor
  · intro found
    unfold leading? at found
    split at found
    next keyword pieces split_eq =>
      obtain ⟨⟨inside, behind⟩, closed, equal⟩ := bind_eq_ok_iff.mp found
      obtain rfl := Option.some.inj (pure_eq_ok_iff.mp equal)
      have parts : Marker.form.split text = [] ++ .phrase (.opens keyword) :: pieces := split_eq
      refine ⟨isBlock_of_close parts closed, Marker.form.join behind, ?_⟩
      rw [← Marker.form.join_split text, split_eq, Form.join_cons, ← append_eq_of_close closed,
        Form.join_append, List.append_assoc]
      rfl
    next => cases found
  · rintro ⟨whole, rest, rfl⟩
    obtain ⟨keyword, inside, split_eq, closes, block_eq⟩ := exists_split_eq_of_isBlock whole
    have closed : close line ⟨keyword, line⟩ [] (inside ++ [.phrase .closes]) =
        .ok (inside ++ [.phrase .closes], []) := by
      refine (close_eq_ok_self_iff _ _ _ _).mpr ⟨?_, by simp⟩
      rw [List.filterMap_append]
      exact closes
    have parts : Marker.form.split (block ++ rest) =
        .phrase (.opens keyword) :: (inside ++ [.phrase .closes] ++ Marker.form.split rest) := by
      rw [block_eq, List.append_assoc, Marker.split_append_closer, ← block_eq, split_eq]
      rfl
    unfold leading?
    rw [parts]
    refine bind_eq_ok_iff.mpr ⟨_, close_append closed _, pure_eq_ok_iff.mpr ?_⟩
    rw [block_eq, Marker.join_append_closes, Form.join_nil, List.append_nil, List.append_assoc]

/-- An opener among the pieces of a block, other than its own, opens a block that is closed in front
of the end statement. -/
theorem exists_inner_of_split_eq
    {block : Text}
    {before others : List (Piece Marker)}
    {keyword : Keyword}
    (whole : block.IsBlock)
    (parts : Marker.form.split block = before ++ .phrase (.opens keyword) :: others)
    (fronted : before ≠ []) :
    ∃ inner behind : Text, inner.IsBlock ∧
      block = Marker.form.join before ++ (inner ++ (behind ++ Marker.closer)) := by
  obtain ⟨outer, pieces, split_eq, closes, ends⟩ := block.isBlock_iff.mp whole
  obtain ⟨first, before, rfl⟩ := List.exists_cons_of_ne_nil fronted
  obtain ⟨_, rfl⟩ := List.cons.inj (split_eq.symm.trans parts)
  rw [List.append_eq, List.filterMap_append,
    List.filterMap_cons_some (Piece.phrase?_phrase _)] at closes
  obtain ⟨innerMarkers, outerMarkers, markers_eq, innerCloses, more⟩ := closes.exists_inner
  obtain ⟨within, behind, rfl, rfl, rfl⟩ := Form.exists_eq_append_of_filterMap_eq_append markers_eq
  -- the last piece closes the outer block and stands behind the inner one
  obtain ⟨middle, rfl⟩ : ∃ middle, behind = middle ++ [.phrase .closes] := by
    have nonempty : behind ≠ [] := by
      rintro rfl
      exact more rfl
    refine List.getLast?_eq_some_iff.mp ?_
    rwa [List.append_eq, List.getLast?_append_of_ne_nil _ (by simp), ← List.cons_append,
      List.append_cons, List.getLast?_append_of_ne_nil _ nonempty] at ends
  refine ⟨keyword.opener ++ (Marker.form.join within ++ Marker.closer), Marker.form.join middle,
    isBlock_of_split_eq_append parts innerCloses, ?_⟩
  rw [← Marker.form.join_split block, parts, Form.join_append, List.append_cancel_left_eq,
    Form.join_cons, Marker.join_append_closes, Marker.join_append_closes, Form.join_nil,
    List.append_nil]
  simp only [List.append_assoc]
  rfl

end Block

namespace Text.IsBlock

/-- A block does not change what is found behind it. -/
theorem split_append {block : Text} (whole : block.IsBlock) (rest : Text) :
    Marker.form.split (block ++ rest) = Marker.form.split block ++ Marker.form.split rest := by
  obtain ⟨keyword, inside, _, _, block_eq⟩ := Block.exists_split_eq_of_isBlock whole
  rw [block_eq, List.append_assoc, Marker.split_append_closer]

/-- A block starts with an opener. -/
theorem exists_eq_opener_append {block : Text} (whole : block.IsBlock) :
    ∃ keyword inside, block = (Marker.opens keyword).text ++ inside ∧ inside ≠ [] ∧
      Marker.startsOutsideWord inside = true := by
  obtain ⟨keyword, inside, split_eq, _⟩ := Block.exists_split_eq_of_isBlock whole
  have read := Marker.form.read?_eq_some_of_split_eq_cons split_eq
  obtain ⟨block_eq, outside⟩ := Marker.read?_eq_some_iff.mp read
  refine ⟨keyword, _, block_eq, ?_, outside⟩
  rw [ne_eq, Form.join_eq_nil_iff]
  simp

/-- An opener that stands inside of a block opens a block that is closed in front of the end
statement, whatever text is around. -/
theorem exists_inner
    {block rest front after : Text}
    {keyword : Keyword}
    (whole : block.IsBlock)
    (parts : block ++ rest = front ++ ((Marker.opens keyword).text ++ after))
    (outside : Marker.startsOutsideWord after = true)
    (fronted : front ≠ [])
    (short : front.byteSize < block.byteSize) :
    ∃ inner behind : Text, inner.IsBlock ∧
      block = front ++ (inner ++ (behind ++ Marker.closer)) := by
  have found : Form.Occurrence.mk front (.opens keyword) after ∈
      Marker.form.occurrences (block ++ rest) :=
    (Marker.form_keepsApart.mem_occurrences_iff _ _).mpr
      ⟨by rw [parts, List.append_assoc]; rfl, Marker.read?_eq_some_iff.mpr ⟨rfl, outside⟩⟩
  obtain ⟨before, others, pieces_eq, front_eq, _⟩ :
      ∃ before others, Marker.form.split (block ++ rest) =
        before ++ .phrase (.opens keyword) :: others ∧
        front = Marker.form.join before ∧ after = Marker.form.join others :=
    Marker.form.exists_eq_append_of_mem_occurrencesFrom found
  subst front_eq
  rw [whole.split_append] at pieces_eq
  have block_eq := Marker.form.join_split block
  rcases List.append_eq_append_iff.mp pieces_eq with
    ⟨more, before_eq, _⟩ | ⟨more, split_eq, more_eq⟩
  · rw [before_eq, Form.join_append, block_eq, byteSize_append] at short
    omega
  · cases more with
    | nil =>
        rw [List.append_nil] at split_eq
        rw [← block_eq, split_eq] at short
        omega
    | cons piece more =>
        obtain ⟨rfl, _⟩ := List.cons.inj more_eq
        refine Block.exists_inner_of_split_eq whole split_eq ?_
        rintro rfl
        exact fronted rfl

end Text.IsBlock

/-! ## The block at a cursor -/

namespace Cursor

/-- A block opens at a place exactly if a text that is one block stands there. -/
theorem block?_eq_ok_some_iff (cursor : Cursor) (span : Span) :
    cursor.block? = .ok (some span) ↔
      ∃ block : Text, block.IsBlock ∧ block <+: cursor.behind ∧
        span = Span.behind cursor.before block := by
  rw [block?, bind_eq_ok_iff]
  constructor
  · rintro ⟨found, leading, equal⟩
    obtain ⟨block, rfl, rfl⟩ := Option.map_eq_some_iff.mp (pure_eq_ok_iff.mp equal)
    obtain ⟨whole, start⟩ := (Block.leading?_eq_ok_some_iff _ _ _).mp leading
    exact ⟨block, whole, start, rfl⟩
  · rintro ⟨block, whole, start, rfl⟩
    exact ⟨some block, (Block.leading?_eq_ok_some_iff _ _ _).mpr ⟨whole, start⟩, rfl⟩

/-- Of two blocks in a row of places, the second is closed inside of the first one if it opens
there. -/
theorem exists_block?_of_standsAt
    {text : Text}
    {cursor : Cursor}
    {start stop : Nat}
    (placed : at? text start = some cursor)
    (resolved : cursor.block? = .ok (some ⟨start, stop⟩))
    {keyword : Keyword}
    {span : Span}
    (stands : (Marker.opens keyword).StandsAt text span)
    (behindStart : start < span.start)
    (beforeStop : span.start < stop) :
    ∃ inner innerStop, at? text span.start = some inner ∧
      inner.block? = .ok (some ⟨span.start, innerStop⟩) ∧ innerStop + 7 ≤ stop := by
  obtain ⟨rfl, rfl⟩ := at?_eq_some_iff.mp placed
  obtain ⟨block, whole, ⟨rest, behind_eq⟩, span_eq⟩ := (cursor.block?_eq_ok_some_iff _).mp resolved
  obtain ⟨_, rfl⟩ := Span.mk.inj span_eq
  obtain ⟨before, after, text_eq, rfl, outside⟩ := stands
  rw [List.append_assoc] at text_eq
  obtain ⟨front, rfl, parts⟩ :=
    Text.exists_eq_append_of_byteSize_le text_eq (Nat.le_of_lt behindStart)
  rw [← behind_eq] at parts
  simp only [Span.behind, offset, Text.byteSize_append] at behindStart beforeStop
  have fronted : front ≠ [] := by
    rintro rfl
    simp at behindStart
  obtain ⟨inner, middle, innerWhole, block_eq⟩ :=
    whole.exists_inner parts outside fronted (by omega)
  refine ⟨⟨cursor.before ++ front, inner ++ (middle ++ Marker.closer) ++ rest⟩,
    (cursor.before ++ front).byteSize + inner.byteSize, at?_eq_some_iff.mpr ⟨?_, rfl⟩,
    (block?_eq_ok_some_iff _ _).mpr
      ⟨inner, innerWhole, ⟨middle ++ Marker.closer ++ rest, ?_⟩, rfl⟩, ?_⟩
  · rw [← behind_eq, block_eq]
    simp only [List.append_assoc]
  · simp only [List.append_assoc]
  · have closer_size : Marker.closer.byteSize = 7 := rfl
    rw [block_eq]
    simp only [Text.byteSize_append, closer_size]
    omega

/-- A block that was found at one place is found wherever its text stands. -/
theorem block?_glued {block : Text} (whole : block.IsBlock) (front rest : Text) :
    block? ⟨front, block ++ rest⟩ = .ok (some (Span.behind front block)) :=
  (block?_eq_ok_some_iff _ _).mpr ⟨block, whole, List.prefix_append block rest, rfl⟩

/-- Where a block is found an opener stands. -/
theorem exists_standsAt_of_block?
    {text : Text}
    {cursor : Cursor}
    {start stop : Nat}
    (placed : at? text start = some cursor)
    (resolved : cursor.block? = .ok (some ⟨start, stop⟩)) :
    ∃ keyword span, (Marker.opens keyword).StandsAt text span ∧ span.start = start := by
  obtain ⟨rfl, rfl⟩ := at?_eq_some_iff.mp placed
  obtain ⟨block, whole, ⟨rest, behind_eq⟩, _⟩ := (cursor.block?_eq_ok_some_iff _).mp resolved
  obtain ⟨keyword, inside, rfl, nonempty, outside⟩ := whole.exists_eq_opener_append
  refine ⟨keyword, _, ⟨cursor.before, inside ++ rest, ?_, rfl, ?_⟩, rfl⟩
  · rw [← behind_eq]
    simp only [List.append_assoc]
  · rw [Marker.endsBefore_append nonempty]
    exact outside

/-- Blocks nest, and they do not depend on what is around them.  Every opener inside of a block
opens a block that is closed in front of the end statement; so a block that opens later lies behind
the block or inside of it; and the text of the block is the same block wherever it is put. -/
theorem block?_nests_and_moves
    {text : Text}
    {start stop : Nat}
    {cursor : Cursor}
    (placed : at? text start = some cursor)
    (resolved : cursor.block? = .ok (some ⟨start, stop⟩)) :
    (∀ keyword span, (Marker.opens keyword).StandsAt text span →
      start < span.start → span.start < stop →
        ∃ inner innerStop, at? text span.start = some inner ∧
          inner.block? = .ok (some ⟨span.start, innerStop⟩) ∧ innerStop + 7 ≤ stop) ∧
    (∀ other otherStart otherStop, at? text otherStart = some other →
      other.block? = .ok (some ⟨otherStart, otherStop⟩) → start < otherStart →
        stop ≤ otherStart ∨ otherStop + 7 ≤ stop) ∧
    ∃ before block behind : Text, text = before ++ block ++ behind ∧
      Span.behind before block = ⟨start, stop⟩ ∧
      ∀ front rest : Text, ∃ glued, at? (front ++ block ++ rest) front.byteSize = some glued ∧
        glued.block? = .ok (some ⟨front.byteSize, front.byteSize + (stop - start)⟩) := by
  refine ⟨fun keyword span stands => exists_block?_of_standsAt placed resolved stands, ?_, ?_⟩
  · intro other otherStart otherStop otherPlaced otherResolved later
    rcases Nat.lt_or_ge otherStart stop with inside | apart
    · obtain ⟨keyword, span, stands, rfl⟩ := exists_standsAt_of_block? otherPlaced otherResolved
      obtain ⟨inner, innerStop, innerPlaced, innerResolved, bound⟩ :=
        exists_block?_of_standsAt placed resolved stands later inside
      obtain rfl := Option.some.inj (otherPlaced.symm.trans innerPlaced)
      rw [otherResolved] at innerResolved
      cases innerResolved
      exact .inr bound
    · exact .inl apart
  · obtain ⟨rfl, rfl⟩ := at?_eq_some_iff.mp placed
    obtain ⟨block, whole, ⟨rest, behind_eq⟩, span_eq⟩ :=
      (cursor.block?_eq_ok_some_iff _).mp resolved
    refine ⟨cursor.before, block, rest, by rw [List.append_assoc, behind_eq], span_eq.symm, ?_⟩
    intro front more
    refine ⟨⟨front, block ++ more⟩, at?_eq_some_iff.mpr ⟨by simp only [List.append_assoc], rfl⟩, ?_⟩
    obtain ⟨_, rfl⟩ := Span.mk.inj span_eq
    rw [block?_glued whole, offset, Nat.add_sub_cancel_left]
    rfl

/-- A condition inside of a loop ends in front of the end of the loop, and the loop stays a block in
front of an end statement. -/
theorem block?_nests_and_moves_loop :
    let condition : Text :=
      Keyword.opener .if ++ " 1".toList ++ Statement.closing ++ ['é'] ++ Marker.closer
    let text : Text :=
      ['x'] ++ Keyword.opener .range ++ " $a".toList ++ Statement.closing ++ condition ++
        Marker.closer ++ Statement.closing
    (∃ cursor, at? text 1 = some cursor ∧ cursor.block? = .ok (some ⟨1, 37⟩)) ∧
      (∃ inner innerStop, at? text 13 = some inner ∧
        inner.block? = .ok (some ⟨13, innerStop⟩) ∧ innerStop + 7 ≤ 37) ∧
      ∃ block : Text, block <:+: text ∧ ∃ glued, at? (block ++ Marker.closer) 0 = some glued ∧
        glued.block? = .ok (some ⟨0, 36⟩) := by
  intro condition text
  have placed : at? text 1 = some ⟨['x'], text.drop 1⟩ := by decide +kernel
  have resolved : block? ⟨['x'], text.drop 1⟩ = .ok (some ⟨1, 37⟩) := by decide +kernel
  obtain ⟨nests, _, before, block, behind, text_eq, _, moves⟩ :=
    block?_nests_and_moves placed resolved
  have stands : (Marker.opens .if).StandsAt text ⟨13, 17⟩ :=
    ⟨text.take 13, text.drop 17, by decide +kernel, by decide +kernel, by decide +kernel⟩
  exact ⟨⟨_, placed, resolved⟩, nests .if ⟨13, 17⟩ stands (by decide) (by decide),
    block, ⟨before, behind, text_eq.symm⟩, moves [] Marker.closer⟩

end Cursor
end OutputThreading
