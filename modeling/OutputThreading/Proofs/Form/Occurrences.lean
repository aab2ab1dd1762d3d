import OutputThreading.Proofs.Form

/-!
# All occurrences of a phrase

A form finds its phrases from left to right and goes on behind each of them.  If no phrase can start
inside of another, this misses none: the occurrences that are found are all places where a phrase can
be read (`Form.KeepsApart.mem_occurrences_iff`), in their order.
-/

namespace OutputThreading
namespace Form

variable {α : Type}

/-- No phrase of the form starts inside of another. -/
def KeepsApart (form : Form α) : Prop :=
  ∀ {text rest : Text} {phrase : α}, form.read? text = some (phrase, rest) →
    form.Skips (form.write phrase).tail rest

/-! ## Places where a phrase is read -/

theorem KeepsApart.mem_occurrencesFrom_iff
    {form : Form α}
    (apart : form.KeepsApart)
    (seen text : Text)
    (occurrence : Occurrence α) :
    occurrence ∈ form.occurrencesFrom seen (form.split text) ↔
      ∃ front, occurrence.before = seen.reverse ++ front ∧
        text = front ++ form.write occurrence.phrase ++ occurrence.after ∧
        form.read? (form.write occurrence.phrase ++ occurrence.after) =
          some (occurrence.phrase, occurrence.after) := by
  fun_induction form.split text generalizing seen with
  | case1 =>
      have nonempty := form.write_ne_nil occurrence.phrase
      simp [occurrencesFrom, nonempty]
  | case2 c tail phrase rest found inductionHypothesis =>
      have whole := form.eq_write_append found
      rw [occurrencesFrom, List.mem_cons, inductionHypothesis]
      constructor
      · rintro (rfl | ⟨front, before_eq, text_eq, read⟩)
        · refine ⟨[], by simp, by simp [whole], ?_⟩
          simpa [← whole] using found
        · refine ⟨form.write phrase ++ front, by simp [before_eq], ?_, read⟩
          rw [whole, text_eq]
          simp only [List.append_assoc]
      · rintro ⟨front, before_eq, text_eq, read⟩
        cases front with
        | nil =>
            -- two phrases at the same place are the same phrase
            left
            rw [List.nil_append] at text_eq
            rw [← text_eq, found] at read
            obtain ⟨phrase_eq, rest_eq⟩ := Prod.mk.inj (Option.some.inj read)
            cases occurrence
            simp_all
        | cons d front =>
            right
            -- the later phrase does not start inside of the first one
            have text_eq' := whole.symm.trans text_eq
            rw [List.append_assoc] at text_eq'
            rcases List.append_eq_append_iff.mp text_eq' with
              ⟨behind, front_eq, rest_eq⟩ | ⟨part, write_eq, after_eq⟩
            · refine ⟨behind, ?_, by rw [rest_eq, List.append_assoc], read⟩
              rw [before_eq, front_eq]
              simp
            · by_cases empty : part = []
              · subst empty
                refine ⟨[], ?_, by simpa using after_eq.symm, read⟩
                rw [before_eq, ← List.append_nil (d :: front), ← write_eq]
                simp
              · have suffix : part <:+ (form.write phrase).tail := ⟨front, by rw [write_eq]; rfl⟩
                have skipped := apart found part suffix empty
                rw [← after_eq, read] at skipped
                cases skipped
  | case3 c tail notFound inductionHypothesis =>
      rw [occurrencesFrom, inductionHypothesis]
      constructor
      · rintro ⟨front, before_eq, text_eq, read⟩
        exact ⟨c :: front, by simp [before_eq], by rw [text_eq]; rfl, read⟩
      · rintro ⟨front, before_eq, text_eq, read⟩
        cases front with
        | nil =>
            rw [List.nil_append] at text_eq
            rw [← text_eq, notFound] at read
            cases read
        | cons d front =>
            obtain ⟨rfl, tail_eq⟩ := List.cons.inj text_eq
            exact ⟨front, by simp [before_eq], tail_eq, read⟩

/-- The occurrences of a form are all places of the text where one of its phrases is read. -/
theorem KeepsApart.mem_occurrences_iff
    {form : Form α}
    (apart : form.KeepsApart)
    (text : Text)
    (occurrence : Occurrence α) :
    occurrence ∈ form.occurrences text ↔
      text = occurrence.before ++ form.write occurrence.phrase ++ occurrence.after ∧
        form.read? (form.write occurrence.phrase ++ occurrence.after) =
          some (occurrence.phrase, occurrence.after) := by
  simp [occurrences, apart.mem_occurrencesFrom_iff]

/-- Every place where a phrase is read lies in an occurrence: the text in front of the place ends
inside of the phrase. -/
theorem exists_mem_occurrencesFrom_of_read?
    (form : Form α)
    {seen text front behind : Text}
    (text_eq : text = front ++ behind)
    (starts : (form.read? behind).isSome = true) :
    ∃ occurrence ∈ form.occurrencesFrom seen (form.split text), ∃ part rest, rest ≠ [] ∧
      seen.reverse ++ front = occurrence.before ++ part ∧
      form.write occurrence.phrase = part ++ rest := by
  fun_induction form.split text generalizing seen front with
  | case1 =>
      obtain ⟨rfl, rfl⟩ := List.append_eq_nil_iff.mp text_eq.symm
      obtain ⟨⟨phrase, rest⟩, found⟩ := Option.isSome_iff_exists.mp starts
      have written := form.eq_write_append found
      exact absurd (List.append_eq_nil_iff.mp written.symm).1 (form.write_ne_nil phrase)
  | case2 c tail phrase rest found inductionHypothesis =>
      rw [form.eq_write_append found] at text_eq
      rcases List.append_eq_append_iff.mp text_eq with
        ⟨passed, front_eq, rest_eq⟩ | ⟨part, write_eq, behind_eq⟩
      · -- the place lies behind the phrase
        obtain ⟨occurrence, member, part, rest, nonempty, before_eq, write_eq⟩ :=
          inductionHypothesis rest_eq
        refine ⟨occurrence, List.mem_cons_of_mem _ member, part, rest, nonempty, ?_, write_eq⟩
        rw [front_eq, ← before_eq]
        simp
      · by_cases empty : part = []
        · -- the phrase ends at the place
          subst empty
          have here : rest = [] ++ behind := behind_eq.symm
          obtain ⟨occurrence, member, part, rest, nonempty, before_eq, part_eq⟩ :=
            inductionHypothesis here
          refine ⟨occurrence, List.mem_cons_of_mem _ member, part, rest, nonempty, ?_, part_eq⟩
          rw [← before_eq, ← List.append_nil front, ← write_eq]
          simp
        · exact ⟨_, List.mem_cons_self, front, part, empty, rfl, write_eq⟩
  | case3 c tail notFound inductionHypothesis =>
      cases front with
      | nil =>
          rw [List.nil_append] at text_eq
          rw [← text_eq, notFound] at starts
          cases starts
      | cons d front =>
          obtain ⟨rfl, tail_eq⟩ := List.cons.inj text_eq
          obtain ⟨occurrence, member, part, rest, nonempty, before_eq, write_eq⟩ :=
            inductionHypothesis tail_eq
          exact ⟨occurrence, member, part, rest, nonempty, by rw [← before_eq]; simp, write_eq⟩

/-- An occurrence is one of the pieces, between those of the text around it. -/
theorem exists_eq_append_of_mem_occurrencesFrom
    (form : Form α)
    {seen : Text}
    {pieces : List (Piece α)}
    {occurrence : Occurrence α}
    (member : occurrence ∈ form.occurrencesFrom seen pieces) :
    ∃ front behind, pieces = front ++ .phrase occurrence.phrase :: behind ∧
      occurrence.before = seen.reverse ++ form.join front ∧
      occurrence.after = form.join behind := by
  induction pieces generalizing seen with
  | nil => cases member
  | cons piece pieces inductionHypothesis =>
      cases piece with
      | char c =>
          obtain ⟨front, behind, rfl, before_eq, after_eq⟩ := inductionHypothesis member
          exact ⟨.char c :: front, behind, rfl, by simp [before_eq], after_eq⟩
      | phrase phrase =>
          rcases List.mem_cons.mp member with rfl | member
          · exact ⟨[], pieces, rfl, by simp, rfl⟩
          · obtain ⟨front, behind, rfl, before_eq, after_eq⟩ := inductionHypothesis member
            exact ⟨.phrase phrase :: front, behind, rfl, by simp [before_eq], after_eq⟩

/-! ## The order of occurrences -/

theorem prefix_before_of_mem_occurrencesFrom
    (form : Form α)
    {seen : Text}
    {pieces : List (Piece α)}
    {occurrence : Occurrence α}
    (member : occurrence ∈ form.occurrencesFrom seen pieces) :
    seen.reverse <+: occurrence.before := by
  induction pieces generalizing seen with
  | nil => cases member
  | cons piece pieces inductionHypothesis =>
      cases piece with
      | char c =>
          have later : occurrence ∈ form.occurrencesFrom (c :: seen) pieces := member
          refine List.IsPrefix.trans ?_ (inductionHypothesis later)
          simp
      | phrase phrase =>
          rw [occurrencesFrom, List.mem_cons] at member
          rcases member with rfl | member
          · exact List.prefix_rfl
          · refine List.IsPrefix.trans ?_ (inductionHypothesis member)
            simp

/-- Occurrences are listed from left to right and do not overlap. -/
theorem pairwise_occurrencesFrom
    (form : Form α)
    (seen : Text)
    (pieces : List (Piece α)) :
    (form.occurrencesFrom seen pieces).Pairwise fun first second =>
      first.before ++ form.write first.phrase <+: second.before := by
  induction pieces generalizing seen with
  | nil => exact .nil
  | cons piece pieces inductionHypothesis =>
      cases piece with
      | char c => exact inductionHypothesis (c :: seen)
      | phrase phrase =>
          refine List.pairwise_cons.mpr ⟨fun second member => ?_, inductionHypothesis _⟩
          simpa using form.prefix_before_of_mem_occurrencesFrom member

/-- Behind the first phrase the text is searched like a text of its own. -/
theorem exists_placed_eq_cons
    (form : Form α)
    {offset start : Nat}
    {text : Text}
    {phrase : α}
    {others : List (Nat × α)}
    (found : form.placed offset text = (start, phrase) :: others) :
    ∃ before after, text = before ++ form.write phrase ++ after ∧
      start = offset + before.byteSize ∧
      others = form.placed (start + (form.write phrase).byteSize) after := by
  unfold placed at found ⊢
  fun_induction form.split text generalizing offset with
  | case1 => cases found
  | case2 c tail first rest read inductionHypothesis =>
      obtain ⟨first_eq, rfl⟩ := List.cons.inj found
      obtain ⟨rfl, rfl⟩ := Prod.mk.inj first_eq
      exact ⟨[], rest, by rw [form.eq_write_append read]; rfl, by simp, rfl⟩
  | case3 c tail notFound inductionHypothesis =>
      obtain ⟨before, after, rfl, start_eq, others_eq⟩ := inductionHypothesis found
      refine ⟨c :: before, after, rfl, ?_, others_eq⟩
      rw [start_eq, Text.byteSize_cons]
      omega

/-! ## Offsets and lines -/

theorem placedFrom_append
    (form : Form α)
    (offset : Nat)
    (left right : List (Piece α)) :
    form.placedFrom offset (left ++ right) =
      form.placedFrom offset left ++ form.placedFrom (offset + (form.join left).byteSize) right := by
  induction left generalizing offset with
  | nil => simp [placedFrom]
  | cons piece left inductionHypothesis =>
      cases piece with
      | char c =>
          rw [List.cons_append, placedFrom, inductionHypothesis, placedFrom, join_cons,
            Text.byteSize_append, Nat.add_assoc]
          rfl
      | phrase phrase =>
          rw [List.cons_append, placedFrom, inductionHypothesis, placedFrom, join_cons,
            Text.byteSize_append, Nat.add_assoc]
          rfl

theorem map_snd_placedFrom (form : Form α) (offset : Nat) (pieces : List (Piece α)) :
    (form.placedFrom offset pieces).map Prod.snd = pieces.filterMap Piece.phrase? := by
  induction pieces generalizing offset with
  | nil => rfl
  | cons piece pieces inductionHypothesis =>
      cases piece with
      | char c => simp [placedFrom, inductionHypothesis, List.filterMap_cons]
      | phrase phrase => simp [placedFrom, inductionHypothesis]

/-- A phrase stands on the line behind the line breaks of the text in front of it. -/
theorem linedFrom_add_breaks
    (form : Form α)
    (line : Nat)
    (seen : Text)
    (pieces : List (Piece α)) :
    form.linedFrom (line + seen.breaks) pieces =
      (form.occurrencesFrom seen pieces).map fun occurrence =>
        (line + occurrence.before.breaks, occurrence.phrase) := by
  induction pieces generalizing seen with
  | nil => rfl
  | cons piece pieces inductionHypothesis =>
      cases piece with
      | char c =>
          have passed : (if c = '\n' then line + seen.breaks + 1 else line + seen.breaks) =
              line + Text.breaks (c :: seen) := by
            simp only [Text.breaks, List.count_cons, beq_iff_eq]
            split <;> omega
          rw [linedFrom, passed, inductionHypothesis, occurrencesFrom]
      | phrase phrase =>
          have passed : line + seen.breaks + (form.write phrase).breaks =
              line + Text.breaks ((form.write phrase).reverse ++ seen) := by
            simp only [Text.breaks, List.count_append, List.count_reverse]
            omega
          have start : seen.breaks = Text.breaks seen.reverse := by
            simp only [Text.breaks, List.count_reverse]
          rw [linedFrom, passed, inductionHypothesis, occurrencesFrom, List.map_cons, start]

/-- A phrase with a line stands in the text, on the line behind the line breaks in front of it. -/
theorem exists_eq_append_of_mem_linedFrom
    (form : Form α)
    {line place : Nat}
    {text : Text}
    {phrase : α}
    (member : (place, phrase) ∈ form.linedFrom line (form.split text)) :
    ∃ before after, text = before ++ form.write phrase ++ after ∧ place = line + before.breaks := by
  have fromStart := form.linedFrom_add_breaks line [] (form.split text)
  rw [Text.breaks_nil, Nat.add_zero] at fromStart
  rw [fromStart] at member
  obtain ⟨occurrence, isOccurrence, equal⟩ := List.mem_map.mp member
  obtain ⟨rfl, rfl⟩ := Prod.mk.inj equal
  have whole := form.before_append_write_append_after isOccurrence
  exact ⟨occurrence.before, occurrence.after, whole.symm, rfl⟩

theorem linedFrom_append
    (form : Form α)
    (line : Nat)
    (left right : List (Piece α)) :
    form.linedFrom line (left ++ right) =
      form.linedFrom line left ++ form.linedFrom (line + (form.join left).breaks) right := by
  induction left generalizing line with
  | nil => simp [linedFrom]
  | cons piece left inductionHypothesis =>
      cases piece with
      | char c =>
          have passed : (if c = '\n' then line + 1 else line) = line + Text.breaks [c] := by
            by_cases isBreak : c = '\n' <;> simp [Text.breaks, isBreak]
          rw [List.cons_append, linedFrom, inductionHypothesis, linedFrom, passed, join_cons,
            Text.breaks_append, Nat.add_assoc]
          rfl
      | phrase phrase =>
          rw [List.cons_append, linedFrom, inductionHypothesis, linedFrom, join_cons,
            Text.breaks_append, Nat.add_assoc]
          rfl

/-- Moving the start of the pieces moves all phrases. -/
theorem linedFrom_add
    (form : Form α)
    (line offset : Nat)
    (pieces : List (Piece α)) :
    form.linedFrom (line + offset) pieces =
      (form.linedFrom line pieces).map fun (place, phrase) => (place + offset, phrase) := by
  induction pieces generalizing line with
  | nil => rfl
  | cons piece pieces inductionHypothesis =>
      cases piece with
      | char c =>
          have passed : (if c = '\n' then line + offset + 1 else line + offset) =
              (if c = '\n' then line + 1 else line) + offset := by
            split <;> omega
          rw [linedFrom, passed, inductionHypothesis, linedFrom]
      | phrase phrase =>
          rw [linedFrom, Nat.add_right_comm, inductionHypothesis, linedFrom, List.map_cons]

/-- Other phrases with as many line breaks stand on the same lines. -/
theorem linedFrom_map
    {form : Form α}
    {f : α → α}
    {pieces : List (Piece α)}
    (kept : ∀ phrase ∈ pieces.filterMap Piece.phrase?,
      (form.write (f phrase)).breaks = (form.write phrase).breaks)
    (line : Nat) :
    form.linedFrom line (pieces.map (Piece.map f)) =
      (form.linedFrom line pieces).map fun (place, phrase) => (place, f phrase) := by
  induction pieces generalizing line with
  | nil => rfl
  | cons piece pieces inductionHypothesis =>
      cases piece with
      | char c => exact inductionHypothesis kept _
      | phrase phrase =>
          rw [List.filterMap_cons_some (Piece.phrase?_phrase phrase), List.forall_mem_cons] at kept
          rw [List.map_cons, Piece.map, linedFrom, kept.1, inductionHypothesis kept.2, linedFrom,
            List.map_cons]

end Form
end OutputThreading
