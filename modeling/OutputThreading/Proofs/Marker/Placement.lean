import OutputThreading.Cursor
import OutputThreading.Proofs.Block
import OutputThreading.Proofs.Form.Occurrences
import OutputThreading.Proofs.Marker

/-!
# Where markers stand

A marker stands at a place of a text if its own text is found there and no word goes on behind its
keyword.  The markers behind a cursor are all markers that stand there, from left to right
(`Cursor.mem_markers_iff`, `Cursor.pairwise_markers`).
-/

namespace OutputThreading

/-! ## Byte offsets -/

namespace Text

theorem cut?_byteSize_append (before behind : Text) :
    cut? (before ++ behind) before.byteSize = some (before, behind) := by
  induction before with
  | nil => cases behind <;> rfl
  | cons c before inductionHypothesis =>
      have positive := c.utf8Size_pos
      obtain ⟨size, size_eq⟩ : ∃ size, c.utf8Size + byteSize before = size + 1 :=
        ⟨c.utf8Size + byteSize before - 1, by omega⟩
      rw [List.cons_append, byteSize_cons, size_eq, cut?, if_pos (by omega), ← size_eq,
        Nat.add_sub_cancel_left, inductionHypothesis]
      rfl

/-- A text can be cut at an offset exactly if a part of that size stands in front. -/
theorem cut?_eq_some_iff {text before behind : Text} {offset : Nat} :
    text.cut? offset = some (before, behind) ↔
      text = before ++ behind ∧ before.byteSize = offset := by
  constructor
  · intro found
    fun_induction cut? text offset generalizing before with
    | case1 text =>
        obtain ⟨rfl, rfl⟩ := Prod.mk.inj (Option.some.inj found)
        exact ⟨rfl, rfl⟩
    | case2 => cases found
    | case3 c rest offset fits inductionHypothesis =>
        obtain ⟨⟨front, others⟩, inner, equal⟩ := Option.map_eq_some_iff.mp found
        obtain ⟨rfl, rfl⟩ := Prod.mk.inj equal
        obtain ⟨rfl, size⟩ := inductionHypothesis inner
        refine ⟨rfl, ?_⟩
        rw [byteSize_cons, size]
        omega
    | case4 => cases found
  · rintro ⟨rfl, rfl⟩
    exact cut?_byteSize_append before behind

/-- The line of an offset is told by the line breaks in front of it. -/
theorem lineAt_byteSize_append (before behind : Text) :
    lineAt (before ++ behind) before.byteSize = 1 + before.breaks := by
  induction before with
  | nil =>
      cases behind with
      | nil => rfl
      | cons c behind =>
          have positive := c.utf8Size_pos
          rw [List.nil_append, byteSize_nil, lineAt, if_neg (by omega)]
          rfl
  | cons c before inductionHypothesis =>
      rw [List.cons_append, lineAt, byteSize_cons, if_pos (by omega), Nat.add_sub_cancel_left,
        inductionHypothesis, breaks, breaks, List.count_cons]
      by_cases newline : c = '\n'
      · simp [newline]
        omega
      · simp [newline]

/-- Of two initial parts of a text, the one with fewer bytes starts the other. -/
theorem exists_eq_append_of_byteSize_le
    {before behind front rest : Text}
    (same : before ++ behind = front ++ rest)
    (short : before.byteSize ≤ front.byteSize) :
    ∃ middle, front = before ++ middle ∧ behind = middle ++ rest := by
  rcases List.append_eq_append_iff.mp same with ⟨middle, front_eq, behind_eq⟩ | ⟨middle, rfl, rfl⟩
  · exact ⟨middle, front_eq, behind_eq⟩
  · rw [byteSize_append] at short
    obtain rfl : middle = [] := eq_nil_of_byteSize_eq_zero (by omega)
    exact ⟨[], by simp, rfl⟩

end Text

theorem Cursor.at?_eq_some_iff {text : Text} {offset : Nat} {cursor : Cursor} :
    at? text offset = some cursor ↔
      text = cursor.before ++ cursor.behind ∧ cursor.offset = offset := by
  unfold at?
  rw [Option.map_eq_some_iff]
  constructor
  · rintro ⟨⟨before, behind⟩, found, rfl⟩
    exact Text.cut?_eq_some_iff.mp found
  · intro placed
    exact ⟨(cursor.before, cursor.behind), Text.cut?_eq_some_iff.mpr placed, rfl⟩

/-! ## Reading a marker -/

namespace Marker

theorem takeWhile_isWord_append
    {word rest : Text}
    (isWord : ∀ c ∈ word, Character.isWord c = true)
    (outside : startsOutsideWord rest = true) :
    (word ++ rest).takeWhile Character.isWord = word := by
  rw [List.takeWhile_append_of_pos isWord]
  cases rest with
  | nil => simp
  | cons c rest =>
      rw [List.takeWhile_cons_of_neg (by simpa [startsOutsideWord] using outside), List.append_nil]

/-- Behind an opener a word ends; behind an end statement anything may follow. -/
def endsBefore : Marker → Text → Bool
  | .opens _, behind => startsOutsideWord behind
  | .closes, _ => true

theorem readOpener?_eq_some_iff {text rest : Text} {keyword : Keyword} {marker : Marker} :
    readOpener? text keyword = some (marker, rest) ↔
      marker = .opens keyword ∧ text = keyword.opener ++ rest ∧ startsOutsideWord rest = true := by
  simp only [readOpener?, Option.bind_eq_bind, Option.bind_eq_some_iff,
    Option.ite_none_right_eq_some, Option.some.injEq, Prod.mk.injEq, Text.after?_eq_some_iff]
  constructor
  · rintro ⟨after, opened, outside, rfl, rfl⟩
    exact ⟨rfl, opened, outside⟩
  · rintro ⟨rfl, opened, outside⟩
    exact ⟨rest, opened, outside, rfl, rfl⟩

/-- The word behind the braces names the keyword of an opener. -/
theorem ofName?_takeWhile_of_readOpener?
    {text rest : Text}
    {keyword : Keyword}
    {marker : Marker}
    (found : readOpener? text keyword = some (marker, rest)) :
    Keyword.ofName? ((text.drop 2).takeWhile Character.isWord) = some keyword := by
  obtain ⟨_, rfl, outside⟩ := readOpener?_eq_some_iff.mp found
  have word : (keyword.name ++ rest).takeWhile Character.isWord = keyword.name :=
    takeWhile_isWord_append (fun c => Keyword.isWord_of_mem_name) outside
  rw [← Keyword.ofName?_name, ← word]
  rfl

/-- A marker is read exactly where its text stands and no word goes on behind its keyword. -/
theorem read?_eq_some_iff {text rest : Text} {marker : Marker} :
    read? text = some (marker, rest) ↔
      text = marker.text ++ rest ∧ marker.endsBefore rest = true := by
  constructor
  · intro found
    refine ⟨eq_text_append_of_read? found, ?_⟩
    rw [read?, Option.or_eq_some_iff] at found
    rcases found with opened | ⟨_, closed⟩
    · obtain ⟨keyword, _, opened⟩ := List.exists_of_findSome?_eq_some opened
      obtain ⟨rfl, _, outside⟩ := readOpener?_eq_some_iff.mp opened
      exact outside
    · obtain ⟨after, _, equal⟩ := Option.map_eq_some_iff.mp closed
      obtain ⟨rfl, _⟩ := Prod.mk.inj equal
      rfl
  · rintro ⟨rfl, ends⟩
    rw [read?]
    cases marker with
    | opens keyword =>
        have opened : readOpener? ((opens keyword).text ++ rest) keyword =
            some (.opens keyword, rest) :=
          readOpener?_eq_some_iff.mpr ⟨rfl, rfl, ends⟩
        cases found : Keyword.all.findSome? (readOpener? ((opens keyword).text ++ rest)) with
        | none =>
            have absent := List.findSome?_eq_none_iff.mp found keyword (Keyword.mem_all keyword)
            rw [opened] at absent
            cases absent
        | some result =>
            obtain ⟨other, _, otherOpened⟩ := List.exists_of_findSome?_eq_some found
            have named := ofName?_takeWhile_of_readOpener? otherOpened
            rw [ofName?_takeWhile_of_readOpener? opened] at named
            rw [← Option.some.inj named, opened] at otherOpened
            exact congrArg some (Option.some.inj otherOpened).symm
    | closes =>
        have noOpener : Keyword.all.findSome? (readOpener? (Marker.closes.text ++ rest)) = none := by
          rw [List.findSome?_eq_none_iff]
          intro keyword _
          rw [Option.eq_none_iff_forall_ne_some]
          rintro ⟨marker, other⟩ opened
          have brace : startsOutsideWord (Statement.closing ++ rest) = true := by
            have outside : Character.isWord '}' = false :=
              Character.isWord_eq_false_of_delimits rfl
            simp [startsOutsideWord, Statement.closing, outside]
          have word : ("end".toList ++ (Statement.closing ++ rest)).takeWhile Character.isWord =
              "end".toList :=
            takeWhile_isWord_append (List.all_eq_true.mp rfl) brace
          have named : Keyword.ofName? "end".toList = some keyword := by
            rw [← ofName?_takeWhile_of_readOpener? opened, ← word]
            rfl
          exact absurd named (by cases keyword <;> decide)
        have closed : readCloser? (Marker.closes.text ++ rest) = some (.closes, rest) := by
          unfold readCloser?
          rw [show Marker.closes.text = closer from rfl, Text.after?_append]
          rfl
        rw [noOpener, closed]
        rfl

/-- Only the first two characters of a marker are opening braces. -/
theorem exists_text_eq (marker : Marker) :
    ∃ c word, marker.text = '{' :: '{' :: c :: word ∧ '{' ∉ c :: word := by
  cases marker with
  | opens keyword => cases keyword <;> exact ⟨_, _, rfl, by decide⟩
  | closes => exact ⟨_, _, rfl, by decide⟩

theorem exists_getLast?_text (marker : Marker) :
    ∃ last, marker.text.getLast? = some last ∧ Character.isSpace last = false := by
  cases marker with
  | opens keyword => cases keyword <;> exact ⟨_, rfl, by decide⟩
  | closes => exact ⟨_, rfl, by decide⟩

theorem form_keepsApart : form.KeepsApart := by
  intro text rest marker found
  obtain ⟨c, word, text_eq, noBrace⟩ := marker.exists_text_eq
  have written : form.write marker = '{' :: '{' :: c :: word := text_eq
  rw [written, List.tail_cons]
  refine .cons (form_isBraced.read?_cons_eq_none fun _ => ?_) ?_
  · intro second
    have brace : c = '{' := Option.some.inj second
    exact noBrace (by simp [brace])
  · exact form_isBraced.skips_of_notMem noBrace rest

/-! ## Text behind a marker -/

theorem endsBefore_append {text : Text} (nonempty : text ≠ []) (marker : Marker) (rest : Text) :
    marker.endsBefore (text ++ rest) = marker.endsBefore text := by
  obtain ⟨c, tail, rfl⟩ := List.exists_cons_of_ne_nil nonempty
  cases marker <;> rfl

/-- What follows has no say in the markers in front of it, if they end there and no word goes on. -/
theorem read?_append
    {front rest : Text}
    (outside : startsOutsideWord rest = true)
    (inFront : ∀ marker : Marker, marker.text <+: front ++ rest → marker.text <+: front) :
    read? (front ++ rest) =
      (read? front).map fun (marker, behind) => (marker, behind ++ rest) := by
  have ends (marker : Marker) (between : Text) :
      marker.endsBefore (between ++ rest) = marker.endsBefore between := by
    cases between with
    | nil =>
        cases marker with
        | opens keyword => exact outside
        | closes => rfl
    | cons c between => exact endsBefore_append (List.cons_ne_nil c between) marker rest
  cases found : read? front with
  | none =>
      rw [Option.map_none, Option.eq_none_iff_forall_ne_some]
      rintro ⟨marker, behind⟩ otherFound
      obtain ⟨same, ended⟩ := read?_eq_some_iff.mp otherFound
      obtain ⟨between, rfl⟩ := inFront marker ⟨behind, same.symm⟩
      rw [List.append_assoc, List.append_cancel_left_eq] at same
      rw [← same, ends] at ended
      rw [read?_eq_some_iff.mpr ⟨rfl, ended⟩] at found
      cases found
  | some result =>
      obtain ⟨marker, behind⟩ := result
      obtain ⟨rfl, ended⟩ := read?_eq_some_iff.mp found
      exact read?_eq_some_iff.mpr ⟨List.append_assoc .., by rwa [ends]⟩

/-- A marker that starts in front of opening braces ends in front of them. -/
theorem text_prefix_of_append_opening
    {front rest : Text}
    {marker : Marker}
    (nonempty : front ≠ [])
    (leading : marker.text <+: front ++ (Statement.opening ++ rest)) :
    marker.text <+: front := by
  rcases List.prefix_or_prefix_of_prefix leading (List.prefix_append front _) with
    short | ⟨excess, text_eq⟩
  · exact short
  · -- what reaches over would start with both braces, but only one is left of the marker's own
    rw [← text_eq, List.prefix_append_right_inj] at leading
    obtain ⟨c, word, braces, noBrace⟩ := marker.exists_text_eq
    rw [braces] at text_eq
    obtain ⟨behind, excess_eq⟩ := leading
    match front, excess, text_eq with
    | _, [], text_eq => simp [braces, ← text_eq]
    | [_], d :: excess, text_eq =>
        obtain ⟨_, rfl, rfl⟩ := by simpa using text_eq
        have second : c = '{' := (List.cons.inj (List.cons.inj excess_eq).2).1
        exact absurd (by simp [second]) noBrace
    | _ :: _ :: front, d :: excess, text_eq =>
        obtain ⟨_, _, word_eq⟩ := by simpa using text_eq
        have brace : d = '{' := (List.cons.inj excess_eq).1
        exact absurd (by simp [← word_eq, brace]) noBrace

/-- Markers in front of opening braces are found without looking at what follows. -/
theorem split_append_opening (front rest : Text) :
    form.split (front ++ (Statement.opening ++ rest)) =
      form.split front ++ form.split (Statement.opening ++ rest) := by
  have outside : startsOutsideWord (Statement.opening ++ rest) = true := by
    have brace : Character.isWord '{' = false := Character.isWord_eq_false_of_delimits rfl
    simp [startsOutsideWord, Statement.opening, brace]
  exact form.split_append fun part _ nonempty =>
    read?_append outside fun marker => text_prefix_of_append_opening nonempty

/-- No marker goes on in white space. -/
theorem split_append_of_isSpace
    {spacing : Text}
    (blank : ∀ c ∈ spacing, Character.isSpace c = true)
    (front : Text) :
    form.split (front ++ spacing) = form.split front ++ form.split spacing := by
  have outside : startsOutsideWord spacing = true := by
    cases spacing with
    | nil => rfl
    | cons c tail =>
        simp [startsOutsideWord, Character.isWord_eq_false_of_isSpace (blank c List.mem_cons_self)]
  refine form.split_append fun part _ _ => read?_append outside fun marker => ?_
  obtain ⟨last, ends, solid⟩ := marker.exists_getLast?_text
  refine Text.prefix_of_prefix_append ends fun member => ?_
  rw [blank last member] at solid
  cases solid

/-- The marker stands in the text at the given bytes: its own text is found there, and no word goes
on behind its keyword. -/
def StandsAt (marker : Marker) (text : Text) (span : Span) : Prop :=
  ∃ before behind, text = before ++ marker.text ++ behind ∧
    span = Span.behind before marker.text ∧ marker.endsBefore behind = true

end Marker

/-! ## The markers behind a cursor -/

namespace Cursor

/-- The markers behind a cursor are all markers of the text that stand there. -/
theorem mem_markers_iff (cursor : Cursor) (marker : Marker) (span : Span) :
    (marker, span) ∈ cursor.markers ↔
      marker.StandsAt (cursor.before ++ cursor.behind) span ∧ cursor.offset ≤ span.start := by
  rw [markers_eq_map_occurrences, List.mem_map]
  constructor
  · rintro ⟨occurrence, member, equal⟩
    obtain ⟨rfl, rfl⟩ := Prod.mk.inj equal
    obtain ⟨whole, read⟩ := (Marker.form_keepsApart.mem_occurrences_iff _ _).mp member
    refine ⟨⟨cursor.before ++ occurrence.before, occurrence.after, ?_, rfl, ?_⟩, ?_⟩
    · rw [whole]
      simp only [List.append_assoc]
      rfl
    · exact (Marker.read?_eq_some_iff.mp read).2
    · simp [offset, Span.behind]
  · rintro ⟨⟨before, behind, whole, rfl, ends⟩, later⟩
    rw [List.append_assoc] at whole
    obtain ⟨middle, rfl, behind_eq⟩ := Text.exists_eq_append_of_byteSize_le whole later
    refine ⟨⟨middle, marker, behind⟩, ?_, rfl⟩
    refine (Marker.form_keepsApart.mem_occurrences_iff _ _).mpr ⟨?_, ?_⟩
    · rw [behind_eq, List.append_assoc]
      rfl
    · exact Marker.read?_eq_some_iff.mpr ⟨rfl, ends⟩

/-- Markers are listed from left to right and do not overlap. -/
theorem pairwise_markers (cursor : Cursor) :
    cursor.markers.Pairwise fun first second => first.2.stop ≤ second.2.start := by
  rw [markers_eq_map_occurrences, List.pairwise_map]
  refine (Marker.form.pairwise_occurrencesFrom [] _).imp fun {first second} ordered => ?_
  obtain ⟨middle, before_eq⟩ := ordered
  have text_eq : Marker.form.write first.phrase = first.phrase.text := rfl
  simp only [Span.behind, ← before_eq, text_eq, Text.byteSize_append]
  omega

/-- The markers behind the first marker are those behind the place where it ends. -/
theorem exists_at?_of_markers_eq_cons
    (cursor : Cursor)
    {marker : Marker}
    {span : Span}
    {others : List (Marker × Span)}
    (found : cursor.markers = (marker, span) :: others) :
    ∃ next, at? (cursor.before ++ cursor.behind) span.stop = some next ∧ next.markers = others := by
  obtain ⟨⟨start, phrase⟩, rest, placed, equal, others_eq⟩ := List.map_eq_cons_iff.mp found
  obtain ⟨rfl, rfl⟩ := Prod.mk.inj equal
  obtain ⟨before, after, behind_eq, start_eq, rfl⟩ := Marker.form.exists_placed_eq_cons placed
  refine ⟨⟨cursor.before ++ before ++ phrase.text, after⟩, ?_, ?_⟩
  · refine at?_eq_some_iff.mpr ⟨?_, ?_⟩
    · rw [behind_eq]
      simp only [List.append_assoc]
      rfl
    · simp only [offset, Text.byteSize_append, start_eq]
  · rw [← others_eq]
    simp only [markers, offset, Text.byteSize_append, start_eq]
    rfl

end Cursor
end OutputThreading
