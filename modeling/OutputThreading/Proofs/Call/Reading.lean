import OutputThreading.Accumulator
import OutputThreading.Call.Basic
import OutputThreading.Proofs.Call.Argument
import OutputThreading.Proofs.Form
import OutputThreading.Proofs.Text.Occurrence

/-!
# Reading a call back

A call is recognised by its word, white space and a quoted name that is not empty; the argument
never decides whether there is a call (`Call.startsCall_iff`).  So a call that was read is read
again wherever its argument is cut off in the same way (`Call.WellFormed.read?_text_append`), and a
generated name in the code starts no call (`Call.skips_name`).
-/

namespace OutputThreading

theorem Accumulator.project_eq (pair : Text) (index : Nat) :
    Accumulator.project pair index =
      "(index ".toList ++ pair ++ [' '] ++ Text.ofNat index ++ [')'] := rfl

namespace Call

/-- The parts of a call are such as reading a call gives them. -/
structure WellFormed (call : Call) : Prop where
  /-- There is white space in front of the name. -/
  spacing_ne_nil : call.spacing ≠ []
  /-- There is nothing else in front of the name. -/
  spacing_blank : ∀ c ∈ call.spacing, Character.isSpace c = true
  /-- The name is not empty. -/
  callee_ne_nil : call.callee ≠ []
  /-- The name holds no quote. -/
  quote_notMem_callee : '"' ∉ call.callee

theorem text_append (call : Call) (rest : Text) :
    call.text ++ rest =
      opener ++ (call.spacing ++ '"' :: (call.callee ++ '"' :: (call.argument ++ rest))) := by
  simp [text]

/-- A word, white space and a quoted name make a call with whatever argument follows. -/
theorem WellFormed.read?_eq
    {call : Call}
    (formed : call.WellFormed)
    (behind : Text) :
    read? (opener ++ (call.spacing ++ '"' :: (call.callee ++ '"' :: behind))) =
      some (⟨call.spacing, call.callee, (Argument.split behind).1⟩, (Argument.split behind).2) := by
  have solid : Character.isSpace '"' = false := by decide
  have name : Text.breakOn? (call.callee ++ '"' :: behind) ['"'] = some (call.callee, behind) :=
    Text.breakOn?_singleton_eq_some_iff.mpr ⟨rfl, formed.quote_notMem_callee⟩
  simp [read?, Text.leadingSpace_append_solid formed.spacing_blank solid,
    Text.trimStart_append_solid formed.spacing_blank solid, name, formed.spacing_ne_nil,
    formed.callee_ne_nil]

theorem WellFormed.read?_text_append
    {call : Call}
    (formed : call.WellFormed)
    {rest : Text}
    (cut : Argument.split (call.argument ++ rest) = (call.argument, rest)) :
    read? (call.text ++ rest) = some (call, rest) := by
  rw [text_append, formed.read?_eq, cut]

theorem wellFormed_of_read?
    {text rest : Text}
    {call : Call}
    (found : read? text = some (call, rest)) :
    call.WellFormed := by
  simp only [read?, Option.bind_eq_bind, Option.bind_eq_some_iff] at found
  obtain ⟨behindWord, _, behindQuote, _, ⟨callee, behindName⟩, name, found⟩ := found
  simp only [Option.ite_none_left_eq_some, Option.some.injEq, Prod.mk.injEq, not_or] at found
  obtain ⟨⟨spaced, named⟩, rfl, rfl⟩ := found
  exact ⟨spaced, fun c => Text.isSpace_of_mem_leadingSpace, named,
    (Text.breakOn?_singleton_eq_some_iff.mp name).2⟩

/-- The argument of a call that was read is what is cut off the text behind the name. -/
theorem split_argument_of_read?
    {text rest : Text}
    {call : Call}
    (found : read? text = some (call, rest)) :
    Argument.split (call.argument ++ rest) = (call.argument, rest) := by
  have formed := wellFormed_of_read? found
  have whole := eq_text_append_of_read? found
  rw [whole, text_append, formed.read?_eq] at found
  simp only [Option.some.injEq, Prod.mk.injEq] at found
  obtain ⟨parts, rest_eq⟩ := found
  exact Prod.ext (congrArg Call.argument parts) rest_eq

/-! ## Where a call starts -/

/-- A call starts at the start of the text. -/
def startsCall (text : Text) : Bool :=
  (read? text).isSome

/-- A call starts exactly where the word, white space and a quoted name stand. -/
theorem startsCall_iff {text : Text} :
    startsCall text = true ↔
      ∃ call : Call, call.WellFormed ∧
        ∃ behind, text = opener ++ (call.spacing ++ '"' :: (call.callee ++ '"' :: behind)) := by
  constructor
  · intro starts
    obtain ⟨⟨call, rest⟩, found⟩ := Option.isSome_iff_exists.mp starts
    refine ⟨call, wellFormed_of_read? found, call.argument ++ rest, ?_⟩
    rw [eq_text_append_of_read? found, text_append]
  · rintro ⟨call, formed, behind, rfl⟩
    rw [startsCall, formed.read?_eq]
    rfl

theorem opener_eq : opener = 'e' :: "xecTemplate".toList := by
  decide

theorem read?_cons_of_ne {c : Char} (different : c ≠ 'e') (rest : Text) :
    read? (c :: rest) = none := by
  simp [read?, opener_eq, Text.after?_cons_of_ne different]

/-- No call starts in a part without the first letter of the word. -/
theorem skips_of_notMem {front : Text} (absent : 'e' ∉ front) (rest : Text) :
    form.Skips front rest := by
  refine Form.Skips.of_forall_mem (fun c member text => ?_) rest
  exact read?_cons_of_ne (fun equal => absent (equal ▸ member)) text

/-- No call starts in a name that is followed by a space and something other than a quote. -/
theorem skips_name
    {name : Text}
    (isName : name.IsName)
    {c : Char}
    (solid : Character.isSpace c = false)
    (notQuote : c ≠ '"')
    (rest : Text) :
    form.Skips name (' ' :: c :: rest) := by
  intro part suffix _
  rw [← Option.not_isSome_iff_eq_none]
  intro starts
  obtain ⟨call, formed, behind, equal⟩ := startsCall_iff.mp starts
  -- both the name and the word end at the first white space
  have nameEnds : (part ++ ' ' :: c :: rest).dropWhile (!Character.isSpace ·) =
      [' '] ++ c :: rest := by
    rw [List.dropWhile_append_of_pos]
    · rfl
    · intro d member
      simp [Character.isSpace_eq_false_of_isNamePart (isName.of_suffix suffix d member)]
  have wordEnds (tail : Text) : (opener ++ (call.spacing ++ tail)).dropWhile
      (!Character.isSpace ·) = call.spacing ++ tail := by
    obtain ⟨d, spacing, spacing_eq⟩ := List.exists_cons_of_ne_nil formed.spacing_ne_nil
    have space : Character.isSpace d = true := formed.spacing_blank d (by simp [spacing_eq])
    rw [List.dropWhile_append_of_pos (List.all_eq_true.mp (by decide)), spacing_eq,
      List.cons_append, List.dropWhile_cons_of_neg (by simp [space])]
  rw [equal, wordEnds] at nameEnds
  have trimmed := congrArg Text.trimStart nameEnds
  rw [Text.trimStart_append_solid formed.spacing_blank (by decide),
    Text.trimStart_append_solid (List.forall_mem_singleton.mpr (by decide)) solid] at trimmed
  exact notQuote (List.cons.inj trimmed).1.symm

theorem skips_index (rest : Text) : form.Skips "(index ".toList rest := by
  have inWord : read? ('e' :: 'x' :: ' ' :: rest) = none := by
    simp [read?, opener_eq, Text.after?]
  exact .cons (read?_cons_of_ne (by decide) _) <| .cons (read?_cons_of_ne (by decide) _) <|
    .cons (read?_cons_of_ne (by decide) _) <| .cons (read?_cons_of_ne (by decide) _) <|
    .cons inWord <| .cons (read?_cons_of_ne (by decide) _) <|
    .cons (read?_cons_of_ne (by decide) _) <| .nil rest

/-- No call starts in the projection of a variable. -/
theorem skips_project
    {name : Text}
    (isName : name.IsName)
    (index : Nat)
    (rest : Text) :
    form.Skips (Accumulator.project name index) rest := by
  obtain ⟨digit, digits, number⟩ := List.exists_cons_of_ne_nil (Text.ofNat_ne_nil index)
  have isDigit : digit.isDigit = true := Text.isDigit_of_mem_ofNat (number ▸ List.mem_cons_self)
  have solid : Character.isSpace digit = false :=
    Character.isSpace_eq_false_of_isNamePart
      (Text.isName_of_digits (fun c => Text.isDigit_of_mem_ofNat) digit
        (number ▸ List.mem_cons_self))
  have notQuote : digit ≠ '"' := by
    rintro rfl
    exact absurd isDigit (by decide)
  have tail : form.Skips (' ' :: (Text.ofNat index ++ [')'])) rest := by
    refine skips_of_notMem ?_ rest
    have noLetter : 'e' ∉ Text.ofNat index :=
      fun member => absurd (Text.isDigit_of_mem_ofNat member) (by decide)
    simp [noLetter]
  rw [Accumulator.project_eq, List.append_assoc, List.append_assoc, List.append_assoc]
  refine (skips_index _).append (.append ?_ tail)
  rw [number]
  exact skips_name isName solid notQuote _

/-! ## Other text in the place of a call -/

/-- A text that cannot continue any call in front of it: the empty literal or something in
parentheses. -/
inductive IsInert : Text → Prop
  /-- The empty literal. -/
  | emptyLiteral : IsInert ['"', '"']
  /-- Something in parentheses. -/
  | paren (tail : Text) : IsInert ('(' :: tail)

theorem IsInert.ne_nil {value : Text} (inert : IsInert value) : value ≠ [] := by
  cases inert <;> exact List.cons_ne_nil _ _

/-- Inert text in front of which a call has begun stands inside of the name of that call. -/
theorem WellFormed.exists_name_of_isInert
    {found : Call}
    (formed : found.WellFormed)
    {front value other behind : Text}
    (inert : IsInert value)
    (equal : front ++ (value ++ other) =
      opener ++ (found.spacing ++ '"' :: (found.callee ++ '"' :: behind))) :
    ∃ name, front = opener ++ (found.spacing ++ '"' :: name) ∧
      name ++ (value ++ other) = found.callee ++ '"' :: behind := by
  have opened : front ++ (value ++ other) =
      (opener ++ found.spacing ++ ['"']) ++ (found.callee ++ '"' :: behind) := by
    simp [equal]
  rcases List.append_eq_append_iff.mp opened with ⟨missing, short, crossed⟩ | ⟨name, long, crossed⟩
  · cases missing with
    | nil => exact ⟨[], by simpa using short.symm, by simpa using crossed⟩
    | cons c missing =>
        -- the inert text would continue the word or the white space, or open the name
        exfalso
        have first : c = '"' ∨ c = '(' := by
          cases inert with
          | emptyLiteral => exact .inl (List.cons.inj crossed).1.symm
          | paren tail => exact .inr (List.cons.inj crossed).1.symm
        have foreign : c ∉ opener ++ found.spacing := by
          intro member
          rcases List.mem_append.mp member with letter | space
          · rcases first with rfl | rfl <;> exact absurd letter (by decide)
          · have white := formed.spacing_blank c space
            rcases first with rfl | rfl <;> exact absurd white (by decide)
        have opens : missing = [] ∧ c = '"' := by
          rcases List.eq_nil_or_concat missing with rfl | ⟨inner, last, rfl⟩
          · have same : opener ++ found.spacing ++ ['"'] = front ++ [c] := short
            exact ⟨rfl, (List.singleton_inj.mp (List.append_inj_right' same rfl)).symm⟩
          · have same : opener ++ found.spacing ++ ['"'] = (front ++ c :: inner) ++ [last] := by
              simpa using short
            have init := List.append_inj_left' same rfl
            exact absurd (init ▸ by simp) foreign
        obtain ⟨rfl, rfl⟩ := opens
        obtain ⟨d, callee, callee_eq⟩ := List.exists_cons_of_ne_nil formed.callee_ne_nil
        cases inert with
        | emptyLiteral =>
            simp only [callee_eq, List.cons_append, List.nil_append, List.cons.injEq,
              true_and] at crossed
            refine formed.quote_notMem_callee ?_
            rw [callee_eq, ← crossed.1]
            exact List.mem_cons_self
        | paren tail => exact absurd (List.cons.inj crossed).1 (by decide)
  · exact ⟨name, by simp [long], crossed.symm⟩

/-- If a call starts at a place in front of inert text, it also starts there when a call stands in
the place of that text. -/
theorem startsCall_of_isInert
    {front value : Text}
    {call : Call}
    (formed : call.WellFormed)
    (inert : IsInert value)
    (other rest : Text)
    (starts : startsCall (front ++ (value ++ other)) = true) :
    startsCall (front ++ (call.text ++ rest)) = true := by
  obtain ⟨found, foundFormed, behind, equal⟩ := startsCall_iff.mp starts
  obtain ⟨name, rfl, crossed⟩ := foundFormed.exists_name_of_isInert inert equal
  by_cases quoted : '"' ∈ name
  · -- the name ends in front of the inert text
    obtain ⟨callee, tail, rfl, first⟩ := List.eq_append_cons_of_mem quoted
    have named : callee ≠ [] := by
      rintro rfl
      obtain ⟨d, rest, callee_eq⟩ := List.exists_cons_of_ne_nil foundFormed.callee_ne_nil
      rw [callee_eq] at crossed
      refine foundFormed.quote_notMem_callee ?_
      rw [callee_eq, ← (List.cons.inj crossed).1]
      exact List.mem_cons_self
    refine startsCall_iff.mpr ⟨⟨found.spacing, callee, []⟩, ⟨foundFormed.spacing_ne_nil,
      foundFormed.spacing_blank, named, first⟩, tail ++ (call.text ++ rest), ?_⟩
    simp
  · -- the name goes on to the quote of the call
    have spaceNotQuote : '"' ∉ call.spacing :=
      fun member => absurd (formed.spacing_blank '"' member) (by decide)
    have wordNotQuote : '"' ∉ opener := by decide
    have wordNonempty : opener ≠ [] := by decide
    refine startsCall_iff.mpr ⟨⟨found.spacing, name ++ opener ++ call.spacing, []⟩,
      ⟨foundFormed.spacing_ne_nil, foundFormed.spacing_blank, by simp [wordNonempty], ?_⟩,
      call.callee ++ '"' :: (call.argument ++ rest), ?_⟩
    · simp [quoted, spaceNotQuote, wordNotQuote]
    · simp [text_append]

end Call
end OutputThreading
