import OutputThreading.Proofs.Print
import OutputThreading.Proofs.Return

/-!
# Markers on their way through threading

A marker is recognised by a keyword that ends where a word ends.  So a value in the place of a call
neither makes nor removes a marker, unless the word of the call directly follows another word
(`ThreadingContext.marker?_withValues`).
-/

namespace OutputThreading

/-- The word of a call directly follows no other word. -/
def Text.CallsStandApart (text : Text) : Prop :=
  ∀ front c behind, text = front ++ c :: (Call.opener ++ behind) → Character.isWord c = false

theorem Text.CallsStandApart.of_infix
    {text part : Text}
    (apart : text.CallsStandApart)
    (inside : part <:+: text) :
    part.CallsStandApart := by
  obtain ⟨before, after, rfl⟩ := inside
  rintro front c behind rfl
  refine apart (before ++ front) c (behind ++ after) ?_
  simp

theorem Text.callsStandApart_cons_iff {c : Char} {rest : Text} :
    CallsStandApart (c :: rest) ↔
      (Call.opener <+: rest → Character.isWord c = false) ∧ rest.CallsStandApart := by
  constructor
  · intro apart
    refine ⟨?_, apart.of_infix (List.suffix_cons c rest).isInfix⟩
    rintro ⟨behind, rfl⟩
    exact apart [] c behind rfl
  · rintro ⟨first, others⟩ front d behind equal
    cases front with
    | nil =>
        obtain ⟨rfl, rfl⟩ := List.cons.inj equal
        exact first ⟨behind, rfl⟩
    | cons e front => exact others front d behind (List.cons.inj equal).2

instance Text.decidableCallsStandApart : (text : Text) → Decidable text.CallsStandApart
  | [] => .isTrue fun front c behind equal => by simp at equal
  | c :: rest =>
      have := decidableCallsStandApart rest
      decidable_of_iff _ callsStandApart_cons_iff.symm

/-- No keyword at the start of the text directly precedes the word of a call. -/
def Text.KeywordStandsApart (text : Text) : Prop :=
  ∀ keyword : Keyword, ¬keyword.name ++ Call.opener <+: text

/-! ## Keywords end where words end -/

namespace Keyword

theorem isWord_of_mem_name {keyword : Keyword} {c : Char} (member : c ∈ keyword.name) :
    Character.isWord c = true := by
  have word : keyword.name.all Character.isWord = true := by
    cases keyword <;> rfl
  exact List.all_eq_true.mp word c member

theorem notMem_name
    {c : Char}
    (outside : Character.isWord c = false)
    (keyword : Keyword) :
    c ∉ keyword.name :=
  fun member => Bool.false_ne_true (outside.symm.trans (isWord_of_mem_name member))

/-- What stands behind a text does not matter if no keyword ends with the text or beyond it. -/
theorem leads_append
    {keyword : Keyword}
    {front rest : Text}
    (within : keyword.name ≠ front)
    (beyond : ∀ more behind, more ≠ [] → keyword.name = front ++ more → rest = more ++ behind →
      Marker.startsOutsideWord behind = false) :
    keyword.leads (front ++ rest) = keyword.leads front := by
  unfold leads
  by_cases leading : keyword.name <+: front
  · obtain ⟨inner, rfl⟩ := leading
    have behind : Text.after? (keyword.name ++ inner) keyword.name = some inner :=
      Text.after?_append keyword.name inner
    rw [List.append_assoc, Text.after?_append, behind]
    cases inner with
    | nil => exact absurd (List.append_nil keyword.name).symm within
    | cons c inner => rfl
  · rw [Text.after?_eq_none_iff.mpr leading]
    cases found : Text.after? (front ++ rest) keyword.name with
    | none => rfl
    | some behind =>
        rcases List.append_eq_append_iff.mp (Text.eq_append_of_after? found) with
          ⟨more, name_eq, rest_eq⟩ | ⟨more, front_eq, _⟩
        · have nonempty : more ≠ [] := by
            rintro rfl
            exact within (name_eq.trans (List.append_nil front))
          exact beyond more behind nonempty name_eq rest_eq
        · exact absurd ⟨more, front_eq.symm⟩ leading

theorem leads_cons_eq_false
    {c : Char}
    (foreign : c ∉ all.filterMap fun keyword => keyword.name.head?)
    (keyword : Keyword)
    (rest : Text) :
    keyword.leads (c :: rest) = false := by
  have absent : Text.after? (c :: rest) keyword.name = none := by
    rw [Text.after?_eq_none_iff]
    rintro ⟨more, equal⟩
    apply foreign
    rw [List.mem_filterMap]
    refine ⟨keyword, mem_all keyword, ?_⟩
    cases named : keyword.name with
    | nil => cases keyword <;> cases named
    | cons d name =>
        rw [named] at equal
        rw [List.head?_cons, (List.cons.inj equal).1]
  unfold leads
  rw [absent]
  rfl

/-- Where the end of a keyword is the start of the word of a call, that word goes on. -/
theorem startsOutsideWord_of_touching
    {keyword : Keyword}
    {front more rest behind : Text}
    (nonempty : more ≠ [])
    (name_eq : keyword.name = front ++ more)
    (rest_eq : Call.opener ++ rest = more ++ behind) :
    Marker.startsOutsideWord behind = false := by
  rw [Call.opener_eq] at rest_eq
  match more with
  | [] => exact absurd rfl nonempty
  | [c] =>
      have behind_eq : behind = "xecTemplate".toList ++ rest := (List.cons.inj rest_eq).2.symm
      have word : Character.isWord 'x' = true := rfl
      rw [behind_eq]
      simp [Marker.startsOutsideWord, word]
  | c :: d :: more =>
      have second : d = 'x' := (List.cons.inj (List.cons.inj rest_eq).2).1.symm
      have member : 'x' ∈ keyword.name := by
        rw [name_eq, second]
        simp
      exact absurd member (by cases keyword <;> decide)

end Keyword

namespace Text

theorem CallsStandApart.keywordStandsApart
    {text : Text}
    (apart : text.CallsStandApart) :
    text.KeywordStandsApart := by
  rintro keyword ⟨rest, rfl⟩
  have named : keyword.name ≠ [] := by cases keyword <;> decide
  have last : keyword.name ++ Call.opener ++ rest =
      keyword.name.dropLast ++ keyword.name.getLast named :: (Call.opener ++ rest) := by
    rw [List.append_cons, List.dropLast_append_getLast named, List.append_assoc]
  exact Keyword.notMem_name (apart _ _ rest last) keyword (List.getLast_mem named)

theorem keywordStandsApart_of_dollar (rest : Text) : KeywordStandsApart ('$' :: rest) := by
  rintro keyword ⟨behind, equal⟩
  cases keyword <;> cases equal

end Text

namespace Statement

theorem marker?_congr
    {statement other : Statement}
    (leads : ∀ keyword : Keyword, keyword.leads statement.interior = keyword.leads other.interior)
    (ends : statement.interior = "end".toList ↔ other.interior = "end".toList) :
    statement.marker? = other.marker? := by
  have same : (fun keyword : Keyword => keyword.leads statement.interior) =
      fun keyword => keyword.leads other.interior := by
    funext keyword
    exact leads keyword
  unfold marker?
  rw [same]
  by_cases isEnd : other.interior = "end".toList
  · rw [if_pos isEnd, if_pos (ends.mpr isEnd)]
  · rw [if_neg isEnd, if_neg (mt ends.mp isEnd)]

/-- A statement that starts with a variable is no marker. -/
theorem marker?_eq_none_of_dollar
    {statement : Statement}
    {rest : Text}
    (interior : statement.interior = '$' :: rest) :
    statement.marker? = none := by
  have parts : statement.interior = ['$'] ++ rest := interior
  exact marker?_eq_none parts (by decide)

theorem marker?_eq_none_of_print?
    {statement : Statement}
    {print : Print}
    (found : statement.print? = some print) :
    statement.marker? = none := by
  have interior := (interior_of_print? found).1
  rw [List.append_assoc] at interior
  exact marker?_eq_none interior (by decide)

theorem marker?_eq_none_of_return?
    {statement : Statement}
    {source : Return}
    (found : statement.return? = some source) :
    statement.marker? = none := by
  have interior := (interior_of_return? found).1
  rw [List.append_assoc, List.append_assoc] at interior
  exact marker?_eq_none interior (by decide)

/-- A print is no marker, and neither is what becomes of it. -/
theorem marker?_collected
    {names : NameSupply}
    (generated : names.IsGenerated)
    (statement : Statement) :
    (statement.collected names.accumulator).marker? = statement.marker? := by
  unfold collected
  cases found : statement.print? with
  | none => rfl
  | some print =>
      obtain ⟨rest, interior⟩ := generated.exists_appending_eq_cons print.expression
      rw [marker?_eq_none_of_print? found]
      exact marker?_eq_none_of_dollar interior

/-- A return is no marker, and neither is what becomes of it. -/
theorem marker?_returned (accumulator : Text) (statement : Statement) :
    (statement.returned accumulator).marker? = statement.marker? := by
  unfold returned
  cases found : statement.return? with
  | none => rfl
  | some source =>
      have after : (Statement.mk ("return ".toList ++ source.handedBack accumulator)).marker? =
          none :=
        marker?_eq_none rfl (by decide)
      rw [marker?_eq_none_of_return? found]
      exact after

/-- Collecting prints leaves a marker alone. -/
theorem collected_eq_self
    {statement : Statement}
    (marker : statement.marker? ≠ none)
    (accumulator : Text) :
    statement.collected accumulator = statement := by
  unfold collected
  cases found : statement.print? with
  | none => rfl
  | some print => exact absurd (marker?_eq_none_of_print? found) marker

/-- Handing back the output leaves a marker alone. -/
theorem returned_eq_self
    {statement : Statement}
    (marker : statement.marker? ≠ none)
    (accumulator : Text) :
    statement.returned accumulator = statement := by
  unfold returned
  cases found : statement.return? with
  | none => rfl
  | some source => exact absurd (marker?_eq_none_of_return? found) marker

end Statement

/-! ## Threading keeps markers -/

namespace ThreadingContext

variable {context : ThreadingContext}

/-- Values in the place of calls make no marker and remove none if no keyword touches a call. -/
theorem marker?_withValues
    {statement : Statement}
    (apart : statement.interior.KeywordStandsApart) :
    (context.withValues statement).marker? = statement.marker? := by
  rcases context.valuesFrom_eq_or_exists statement.interior [] with
    same | ⟨front, behind, c, other, text_eq, values_eq, first⟩
  · have unchanged : context.withValues statement = statement :=
      congrArg Statement.mk ((context.interior_withValues statement).trans same)
    rw [unchanged]
  · rw [← interior_withValues] at values_eq
    have foreign (keyword : Keyword) : c ∉ keyword.name := by
      rcases first with rfl | rfl <;> cases keyword <;> decide
    have ends : c ∉ "end".toList := by
      rcases first with rfl | rfl <;> decide
    apply Statement.marker?_congr
    · intro keyword
      have within : keyword.name ≠ front := by
        rintro rfl
        apply apart keyword
        rw [text_eq, List.prefix_append_right_inj]
        exact List.prefix_append Call.opener behind
      have beforeValue : keyword.leads (front ++ c :: other) = keyword.leads front := by
        refine Keyword.leads_append within fun more after nonempty name_eq rest_eq => ?_
        obtain ⟨d, more, rfl⟩ := List.exists_cons_of_ne_nil nonempty
        refine absurd ?_ (foreign keyword)
        rw [name_eq, (List.cons.inj rest_eq).1]
        simp
      have beforeCall : keyword.leads (front ++ (Call.opener ++ behind)) = keyword.leads front := by
        refine Keyword.leads_append within fun more after nonempty name_eq rest_eq => ?_
        exact Keyword.startsOutsideWord_of_touching nonempty name_eq rest_eq
      rw [values_eq, text_eq, beforeValue, beforeCall]
    · rw [values_eq, text_eq]
      constructor
      · intro isEnd
        exact absurd (isEnd ▸ by simp : c ∈ "end".toList) ends
      · intro isEnd
        have letter : 'x' ∈ front ++ (Call.opener ++ behind) := by
          rw [Call.opener_eq]
          simp
        rw [isEnd] at letter
        exact absurd letter (by decide)

/-- A statement of which nothing is left is no marker. -/
theorem marker?_eq_none_of_isSpent
    (generated : context.names.IsGenerated)
    {statement : Statement}
    (spent : context.isSpent statement = true) :
    statement.marker? = none := by
  have notEnd : statement.interior ≠ "end".toList := by
    intro isEnd
    have none : Call.form.occurrences "end".toList = [] := by decide +kernel
    unfold isSpent at spent
    rw [isEnd, none] at spent
    cases spent
  have noKeyword (keyword : Keyword) : keyword.leads statement.interior = false := by
    cases interior : statement.interior with
    | nil => cases keyword <;> rfl
    | cons c rest =>
        refine Keyword.leads_cons_eq_false (fun letter => ?_) keyword rest
        have first : statement.interior.head? = some c := by rw [interior, List.head?_cons]
        rcases head?_of_isSpent generated spent first with space | rfl | rfl
        · have solid : (Keyword.all.filterMap fun keyword => keyword.name.head?).all
              (!Character.isSpace ·) = true := by
            decide
          have notSpace := List.all_eq_true.mp solid c letter
          rw [space] at notSpace
          cases notSpace
        · exact absurd letter (by decide)
        · exact absurd letter (by decide)
  have same : statement.marker? = (Statement.mk []).marker? := by
    refine Statement.marker?_congr (fun keyword => ?_) (iff_of_false notEnd (by decide))
    rw [noKeyword]
    cases keyword <;> rfl
  rw [same]
  decide

/-- Threading calls keeps the markers. -/
theorem ThreadsTo.markers_eq
    (generated : context.names.IsGenerated)
    {pieces threaded : List (Piece Statement)}
    (threads : context.ThreadsTo pieces threaded)
    (delimited : Statement.Delimited pieces)
    (apart : ∀ statement ∈ pieces.filterMap Piece.phrase?, statement.interior.KeywordStandsApart) :
    (threaded.filterMap Piece.phrase?).filterMap Statement.marker? =
      (pieces.filterMap Piece.phrase?).filterMap Statement.marker? := by
  refine threads.filterMap_eq fun statement member inline => ?_
  have closes := (delimited.isPlain_of_mem member).closesOnce
  refine filterMap_threadedStatements (fun made rest => Statement.marker?_eq_none_of_dollar)
    generated closes (marker?_eq_none_of_isSpent generated) ?_
  exact marker?_withValues (apart statement member)

end ThreadingContext
end OutputThreading
