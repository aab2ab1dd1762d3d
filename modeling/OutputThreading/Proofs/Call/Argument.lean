import OutputThreading.Call.Argument
import OutputThreading.Proofs.NameSupply
import OutputThreading.Proofs.Text.Space

/-!
# Arguments in other surroundings

An argument that was cut off a text is cut off again when something else follows it.  That holds
behind a call that stays in its statement, where the text behind the argument starts alike
(`Argument.split_append_of_startsAlike`), and for a call that is moved to a statement of its own,
where nothing or a closing parenthesis follows (`Argument.snd_split_append_paren`).  An argument that
was never closed may then take in the parenthesis as well, but nothing is left behind it that could
hold a call.
-/

namespace OutputThreading
namespace Argument

/-! ## Closing everything -/

/-- If something is left behind the closed part, the closed part does not depend on it. -/
theorem takeClosed_append_of_ne_nil
    {nesting : Nesting}
    {taken rest : Text}
    (cut : takeClosed nesting (taken ++ rest) = (taken, rest))
    (nonempty : rest ≠ [])
    (other : Text) :
    takeClosed nesting (taken ++ other) = (taken, other) := by
  induction taken generalizing nesting with
  | nil =>
      obtain ⟨c, tail, rfl⟩ := List.exists_cons_of_ne_nil nonempty
      rw [List.nil_append, takeClosed] at cut
      split at cut <;> simp at cut
  | cons c taken inductionHypothesis =>
      rw [List.cons_append, takeClosed] at cut ⊢
      split at cut
      next closed =>
        simp only [Prod.mk.injEq, List.cons.injEq, true_and] at cut
        obtain ⟨rfl, _⟩ := cut
        simp [closed]
      next notClosed =>
        simp only [Prod.mk.injEq, List.cons.injEq, true_and] at cut
        rw [if_neg notClosed, inductionHypothesis (Prod.ext cut.1 cut.2)]

/-- An initial part of the closed part is taken whole. -/
theorem snd_takeClosed_of_prefix
    {nesting : Nesting}
    {taken rest part : Text}
    (cut : takeClosed nesting (taken ++ rest) = (taken, rest))
    (initial : part <+: taken) :
    (takeClosed nesting part).2 = [] := by
  induction part generalizing nesting taken with
  | nil => rfl
  | cons c part inductionHypothesis =>
      obtain ⟨behind, rfl⟩ := initial
      rw [List.cons_append, List.cons_append, takeClosed] at cut
      rw [takeClosed]
      split at cut
      next closed =>
        simp only [Prod.mk.injEq, List.cons.injEq, true_and] at cut
        have empty : part = [] := (List.append_eq_nil_iff.mp cut.1.symm).1
        simp [closed, empty]
      next notClosed =>
        simp only [Prod.mk.injEq, List.cons.injEq, true_and] at cut
        rw [if_neg notClosed]
        exact inductionHypothesis (Prod.ext cut.1 cut.2) (List.prefix_append part behind)

/-- What is left behind a closed part that was followed by nothing is an end of what follows it
now. -/
theorem snd_takeClosed_append_suffix
    {nesting : Nesting}
    {taken : Text}
    (cut : takeClosed nesting taken = (taken, []))
    (other : Text) :
    (takeClosed nesting (taken ++ other)).2 <:+ other := by
  induction taken generalizing nesting with
  | nil => exact ⟨_, takeClosed_append nesting other⟩
  | cons c taken inductionHypothesis =>
      rw [takeClosed] at cut
      rw [List.cons_append, takeClosed]
      split at cut
      next closed =>
        simp only [Prod.mk.injEq, List.cons.injEq, true_and] at cut
        obtain ⟨_, rfl⟩ := cut
        simp [closed]
      next notClosed =>
        simp only [Prod.mk.injEq, List.cons.injEq, true_and] at cut
        rw [if_neg notClosed]
        exact inductionHypothesis (Prod.ext cut.1 cut.2)

/-! ## The first character of an argument -/

theorem isSpace_eq_false_of_opensClosed {c : Char} (opens : opensClosed c = true) :
    Character.isSpace c = false := by
  simp only [opensClosed, Bool.or_eq_true, decide_eq_true_eq] at opens
  rcases opens with (rfl | rfl) | rfl <;> decide

theorem inOperand_of_opensOperand {c : Char} (opens : opensOperand c = true) :
    inOperand c = true := by
  simp only [opensOperand, Bool.or_eq_true, decide_eq_true_eq] at opens
  rcases opens with (((rfl | rfl) | rfl) | rfl) | letter
  · decide
  · decide
  · decide
  · decide
  · have solid : Character.isSpace c = false := by
      rw [Bool.eq_false_iff]
      intro space
      rw [Character.isAlphanumeric_eq_false_of_isSpace space] at letter
      cases letter
    have notParen : c ≠ ')' := by
      rintro rfl
      exact absurd letter (by decide +kernel)
    simp [inOperand, solid, notParen]

theorem isSpace_eq_false_of_inOperand {c : Char} (operand : inOperand c = true) :
    Character.isSpace c = false := by
  simp only [inOperand, Bool.not_eq_true', Bool.or_eq_false_iff] at operand
  exact operand.1

/-! ## Arguments without their white space -/

/-- How an argument ends: it is closed, or it is an operand that something else ends. -/
inductive Tight : (argument rest : Text) → Prop
  /-- The argument runs to its closing parenthesis or quote. -/
  | closed
      {c : Char}
      {tail rest : Text}
      (opens : opensClosed c = true)
      (cut : takeClosed (.code 0) (c :: tail ++ rest) = (c :: tail, rest)) :
      Tight (c :: tail) rest
  /-- The argument is an operand. -/
  | operand
      {c : Char}
      {tail rest : Text}
      (notClosed : opensClosed c = false)
      (opens : opensOperand c = true)
      (inside : ∀ d ∈ tail, inOperand d = true)
      (ends : ∀ d, rest.head? = some d → inOperand d = false) :
      Tight (c :: tail) rest

theorem tight_of_splitTight
    {text argument rest : Text}
    (found : splitTight text = some (argument, rest)) :
    Tight argument rest := by
  have whole := append_eq_of_splitTight found
  cases text with
  | nil => cases found
  | cons c tail =>
      simp only [splitTight] at found
      split at found
      next opens =>
        simp only [Option.some.injEq] at found
        obtain ⟨taken, rfl⟩ : ∃ taken, argument = c :: taken := by
          rw [takeClosed] at found
          split at found
          · exact ⟨[], (Prod.ext_iff.mp found).1.symm⟩
          · exact ⟨_, (Prod.ext_iff.mp found).1.symm⟩
        exact .closed opens (whole ▸ found)
      next notClosed =>
        split at found
        next opens =>
          simp only [Option.some.injEq, Prod.mk.injEq] at found
          obtain ⟨rfl, rfl⟩ := found
          have first := inOperand_of_opensOperand opens
          rw [List.takeWhile_cons_of_pos first]
          refine .operand (by simpa using notClosed) opens ?_ ?_
          · intro d member
            have all : (tail.takeWhile inOperand).all inOperand = true := List.all_takeWhile
            exact List.all_eq_true.mp all d member
          · intro d head
            have stopped := List.head?_dropWhile_not inOperand (c :: tail)
            rw [head] at stopped
            simpa using stopped
        next => cases found

theorem Tight.splitTight_append
    {argument rest : Text}
    (tight : Tight argument rest) :
    splitTight (argument ++ rest) = some (argument, rest) := by
  cases tight with
  | @closed c tail rest opens cut => simpa [splitTight, opens] using cut
  | @operand c tail rest notClosed opens inside ends =>
      have all : ∀ d ∈ c :: tail, inOperand d = true := by
        intro d member
        rcases List.mem_cons.mp member with rfl | member
        · exact inOperand_of_opensOperand opens
        · exact inside d member
      have stops : rest.takeWhile inOperand = [] ∧ rest.dropWhile inOperand = rest := by
        cases rest with
        | nil => simp
        | cons d rest => simp [ends d rfl]
      have taken : (c :: tail ++ rest).takeWhile inOperand = c :: tail := by
        rw [List.takeWhile_append_of_pos all, stops.1, List.append_nil]
      have dropped : (c :: tail ++ rest).dropWhile inOperand = rest := by
        rw [List.dropWhile_append_of_pos all, stops.2]
      rw [List.cons_append] at taken dropped ⊢
      simp [splitTight, notClosed, opens, taken, dropped]

theorem Tight.exists_cons
    {argument rest : Text}
    (tight : Tight argument rest) :
    ∃ c tail, argument = c :: tail ∧ Character.isSpace c = false := by
  cases tight with
  | closed opens _ => exact ⟨_, _, rfl, isSpace_eq_false_of_opensClosed opens⟩
  | operand _ opens _ _ =>
      exact ⟨_, _, rfl, isSpace_eq_false_of_inOperand (inOperand_of_opensOperand opens)⟩

/-- An argument ends where it did if the first character behind it stays or may be that of a call,
which could not have ended an operand. -/
theorem Tight.of_head?
    {argument rest other : Text}
    (tight : Tight argument rest)
    (alike : rest.head? = some 'e' ∨ other.head? = rest.head?) :
    Tight argument other := by
  cases tight with
  | @closed c tail _ opens cut =>
      refine .closed opens ?_
      cases rest with
      | nil =>
          have same := alike.resolve_left (by simp)
          rwa [List.head?_eq_none_iff.mp same]
      | cons d rest => exact takeClosed_append_of_ne_nil cut (List.cons_ne_nil d rest) other
  | operand notClosed opens inside ends =>
      refine .operand notClosed opens inside fun d head => ?_
      rcases alike with word | same
      · exact absurd (ends 'e' word) (by decide)
      · exact ends d (same ▸ head)

/-- A nonempty initial part of an argument is an argument when nothing follows it. -/
theorem Tight.of_prefix
    {argument rest part : Text}
    (tight : Tight argument rest)
    (initial : part <+: argument)
    (nonempty : part ≠ []) :
    Tight part [] := by
  obtain ⟨d, tail, rfl⟩ := List.exists_cons_of_ne_nil nonempty
  obtain ⟨behind, equal⟩ := initial
  cases tight with
  | @closed c _ _ opens cut =>
      obtain ⟨rfl, rfl⟩ := List.cons.inj equal
      have empty := snd_takeClosed_of_prefix cut (List.prefix_append (d :: tail) behind)
      have whole := takeClosed_append (.code 0) (d :: tail)
      rw [empty, List.append_nil] at whole
      exact .closed opens (by rw [List.append_nil]; exact Prod.ext whole empty)
  | @operand c _ _ notClosed opens inside ends =>
      obtain ⟨rfl, rfl⟩ := List.cons.inj equal
      exact .operand notClosed opens (fun d member => inside d (List.mem_append_left behind member))
        (by simp)

/-! ## Arguments with their white space -/

/-- The white space in front of an argument and the argument itself, or no argument at all. -/
theorem split_cases {text argument rest : Text} (found : split text = (argument, rest)) :
    (argument = [] ∧ rest = text ∧
        (text.leadingSpace = [] ∨ splitTight text.trimStart = none)) ∨
      ∃ tight, argument = text.leadingSpace ++ tight ∧ text.leadingSpace ≠ [] ∧
        Tight tight rest := by
  rw [split] at found
  split at found
  next none =>
    simp only [Prod.mk.injEq] at found
    exact .inl ⟨found.1.symm, found.2.symm, .inl none⟩
  next spaced =>
    split at found
    next tight behind taken =>
      simp only [Prod.mk.injEq] at found
      obtain ⟨rfl, rfl⟩ := found
      exact .inr ⟨tight, rfl, spaced, tight_of_splitTight taken⟩
    next notTaken =>
      simp only [Prod.mk.injEq] at found
      exact .inl ⟨found.1.symm, found.2.symm, .inr notTaken⟩

theorem split_of_tight
    {spacing tight rest : Text}
    (blank : ∀ c ∈ spacing, Character.isSpace c = true)
    (nonempty : spacing ≠ [])
    (ends : Tight tight rest) :
    split (spacing ++ tight ++ rest) = (spacing ++ tight, rest) := by
  obtain ⟨c, tail, rfl, solid⟩ := ends.exists_cons
  rw [split, List.append_assoc, List.cons_append, Text.leadingSpace_append_solid blank solid,
    Text.trimStart_append_solid blank solid, if_neg nonempty, ← List.cons_append,
    ends.splitTight_append]

/-- The second text starts like the first one as far as an argument in front of it can tell, or with
another expression in the place of a word that starts with `e`. -/
structure StartsAlike (rest other : Text) : Prop where
  /-- Both texts start with the same white space. -/
  leadingSpace_eq : other.leadingSpace = rest.leadingSpace
  /-- Behind it they have the same first character, unless it may be that of a call. -/
  head?_eq : rest.trimStart.head? = some 'e' ∨ other.trimStart.head? = rest.trimStart.head?

theorem StartsAlike.head? {rest other : Text} (alike : StartsAlike rest other) :
    rest.head? = some 'e' ∨ other.head? = rest.head? := by
  have restParts := Text.leadingSpace_append_trimStart rest
  have otherParts := Text.leadingSpace_append_trimStart other
  rw [alike.leadingSpace_eq] at otherParts
  cases spacing : rest.leadingSpace with
  | nil =>
      rw [spacing, List.nil_append] at restParts otherParts
      rw [← restParts, ← otherParts]
      simpa [restParts, otherParts] using alike.head?_eq
  | cons c spacing' =>
      rw [spacing] at restParts otherParts
      rw [← restParts, ← otherParts]
      exact .inr rfl

theorem splitTight_eq_none_of_head?_eq
    {text other : Text}
    (absent : splitTight text = none)
    (same : other.head? = text.head?) :
    splitTight other = none := by
  cases text with
  | nil =>
      rw [List.head?_eq_none_iff.mp same]
      rfl
  | cons c tail =>
      obtain ⟨behind, rfl⟩ := List.head?_eq_some_iff.mp same
      simp only [splitTight] at absent ⊢
      split at absent
      · cases absent
      next notClosed =>
        split at absent
        · cases absent
        next notOperand => rw [if_neg notClosed, if_neg notOperand]

/-- An argument is cut off again in front of a text that starts like the one it was cut off from. -/
theorem split_append_of_startsAlike
    {argument rest other : Text}
    (found : split (argument ++ rest) = (argument, rest))
    (alike : StartsAlike rest other) :
    split (argument ++ other) = (argument, other) := by
  rcases split_cases found with ⟨rfl, _, ends⟩ | ⟨tight, equal, spaced, ends⟩
  · rw [List.nil_append] at ends ⊢
    rw [split]
    split
    next => rfl
    next spaced =>
      rw [alike.leadingSpace_eq] at spaced
      have absent : splitTight rest.trimStart = none := ends.resolve_left spaced
      have same : other.trimStart.head? = rest.trimStart.head? := by
        refine alike.head?_eq.resolve_left fun word => ?_
        obtain ⟨behind, equal⟩ := List.head?_eq_some_iff.mp word
        rw [equal] at absent
        simp [splitTight, opensClosed, opensOperand, Character.isAlphanumeric] at absent
      rw [splitTight_eq_none_of_head?_eq absent same]
  · have blank : ∀ c ∈ (argument ++ rest).leadingSpace, Character.isSpace c = true :=
      fun c => Text.isSpace_of_mem_leadingSpace
    rw [equal]
    exact split_of_tight blank spaced (ends.of_head? alike.head?)

/-! ## Arguments of calls that are moved -/

/-- Nothing but white space is left behind an argument that stands alone, or behind an initial part
of it. -/
theorem isBlank_snd_split_of_prefix
    {argument rest part : Text}
    (found : split (argument ++ rest) = (argument, rest))
    (initial : part <+: argument) :
    (split part).2.isBlank = true := by
  rcases split_cases found with ⟨rfl, _, _⟩ | ⟨tight, equal, spaced, ends⟩
  · rw [List.prefix_nil.mp initial]
    rfl
  · have blank : ∀ c ∈ (argument ++ rest).leadingSpace, Character.isSpace c = true :=
      fun c => Text.isSpace_of_mem_leadingSpace
    generalize (argument ++ rest).leadingSpace = spacing at equal spaced blank
    subst equal
    by_cases short : part <+: spacing
    · -- the part does not reach the argument itself
      refine List.all_eq_true.mpr fun c member => blank c (short.subset ?_)
      rw [← split_append part]
      exact List.mem_append_right _ member
    · obtain ⟨inner, rfl⟩ := (List.prefix_or_prefix_of_prefix initial
        (List.prefix_append spacing tight)).resolve_left short
      have inside : inner <+: tight := (List.prefix_append_right_inj spacing).mp initial
      have nonempty : inner ≠ [] := by
        rintro rfl
        exact short (by simp)
      have cut := split_of_tight blank spaced (ends.of_prefix inside nonempty)
      rw [List.append_nil] at cut
      rw [cut]
      rfl

/-- Behind an argument in parentheses at most the closing parenthesis is left. -/
theorem snd_split_append_paren
    {argument rest : Text}
    (found : split (argument ++ rest) = (argument, rest)) :
    (split (argument ++ [')'])).2 <:+ [')'] := by
  rcases split_cases found with ⟨rfl, _, _⟩ | ⟨tight, equal, spaced, ends⟩
  · exact ⟨_, split_append [')']⟩
  · have blank : ∀ c ∈ (argument ++ rest).leadingSpace, Character.isSpace c = true :=
      fun c => Text.isSpace_of_mem_leadingSpace
    generalize (argument ++ rest).leadingSpace = spacing at equal spaced blank
    subst equal
    have alone : Tight tight [] := by
      obtain ⟨c, tail, rfl, _⟩ := ends.exists_cons
      exact ends.of_prefix List.prefix_rfl (List.cons_ne_nil c tail)
    cases alone with
    | @closed c tail _ opens cut =>
        rw [List.append_nil] at cut
        have solid := isSpace_eq_false_of_opensClosed opens
        rw [split, List.append_assoc, List.cons_append, Text.leadingSpace_append_solid blank solid,
          Text.trimStart_append_solid blank solid, if_neg spaced]
        have left := snd_takeClosed_append_suffix cut [')']
        simpa [splitTight, opens] using left
    | operand notClosed opens inside _ =>
        have paren : Tight _ [')'] := .operand notClosed opens inside (by simp [inOperand])
        exact ⟨[], congrArg Prod.snd (split_of_tight blank spaced paren)⟩

end Argument
end OutputThreading
