import OutputThreading.Proofs.Call.Setup
import OutputThreading.Proofs.NameSupply.Capture

/-!
# Temporaries of repeated calls

Further calls of one template in a statement are numbered.  Under fresh naming the numbered name is
made free by a second number behind the first, and the two numbers are not kept apart: a name can be
reached with the one or with the other.  So two calls of one template share a temporary exactly if
the source uses the plain name of the earlier call, and the search for a free number behind it ends
at the temporary of the later call (`NameSupply.temporary_eq_temporary_iff`).  The statement then
reads the value of the later call twice.
-/

namespace OutputThreading

/-! ## Numbers in decimal notation -/

theorem Text.le_ofDigitChars (digits : Text) (start : Nat) :
    start ≤ Nat.ofDigitChars 10 digits start := by
  induction digits generalizing start with
  | nil => exact Nat.le_refl start
  | cons digit digits inductionHypothesis =>
      rw [Nat.ofDigitChars_cons]
      refine Nat.le_trans ?_ (inductionHypothesis _)
      omega

/-- More digits make a larger number. -/
theorem Text.le_of_ofNat_prefix {first second : Nat} (leading : ofNat first <+: ofNat second) :
    first ≤ second := by
  obtain ⟨digits, equal⟩ := leading
  have read : Nat.ofDigitChars 10 (ofNat first ++ digits) 0 = second := by
    rw [equal]
    exact Nat.ofDigitChars_ten_toDigits
  rw [Nat.ofDigitChars_append, ofNat, Nat.ofDigitChars_ten_toDigits] at read
  rw [← read]
  exact le_ofDigitChars digits first

namespace NameSupply

/-! ## First free names -/

theorem IsFirstFree.base_prefix
    {taken : Text → Prop}
    {base name : Text}
    (first : IsFirstFree taken base name) :
    base <+: name := by
  rcases first with ⟨_, rfl⟩ | ⟨_, number, _, rfl, _⟩
  · exact List.prefix_rfl
  · exact List.prefix_append base _

theorem IsFirstFree.unique
    {taken : Text → Prop}
    {base name other : Text}
    (first : IsFirstFree taken base name)
    (second : IsFirstFree taken base other) :
    name = other := by
  rcases first with ⟨free, rfl⟩ | ⟨used, number, positive, rfl, free, passed⟩ <;>
    rcases second with ⟨otherFree, rfl⟩ | ⟨otherUsed, otherNumber, otherPositive, rfl, otherFree,
      otherPassed⟩
  · rfl
  · exact absurd otherUsed free
  · exact absurd used otherFree
  · rcases Nat.lt_trichotomy number otherNumber with less | rfl | more
    · exact absurd (otherPassed number positive less) free
    · rfl
    · exact absurd (passed otherNumber otherPositive more) otherFree

/-- Only names that start with the base matter for the search. -/
theorem IsFirstFree.congr
    {taken other : Text → Prop}
    {base name : Text}
    (same : ∀ rest, taken (base ++ rest) ↔ other (base ++ rest))
    (first : IsFirstFree taken base name) :
    IsFirstFree other base name := by
  have plain : taken base ↔ other base := by simpa using same []
  rcases first with ⟨free, rfl⟩ | ⟨used, number, positive, rfl, free, passed⟩
  · exact .inl ⟨mt plain.mpr free, rfl⟩
  · refine .inr ⟨plain.mp used, number, positive, rfl, mt (same _).mpr free, ?_⟩
    exact fun smaller least less => (same _).mp (passed smaller least less)

/-- Under fresh naming, a temporary is the first name that the source does not use; the accumulator
is not in the way, because temporaries have a capital letter. -/
theorem isFirstFree_temporary_of_ofSource
    {source : Text}
    {names : NameSupply}
    (made : ofSource .fresh source = .ok names)
    (callee : Text)
    (earlier : Nat) :
    IsFirstFree source.Uses (temporaryBase callee earlier) (names.temporary callee earlier) := by
  have generated : names.IsGenerated := ⟨.fresh, source, made⟩
  have lowercase : 'O' ∉ names.accumulator :=
    generated.notMem_accumulator (by decide) (by decide)
  obtain rfl := Except.ok.inj made
  refine (isFirstFree_temporary source _ callee earlier).congr fun rest => or_iff_right ?_
  intro same
  apply lowercase
  rw [← same]
  exact List.mem_append_left rest ((word_infix_temporaryBase callee earlier).subset (by decide))

/-! ## Shared temporaries -/

/-- The plain name of a later call does not start that of an earlier one. -/
theorem le_of_temporaryBase_prefix
    {callee : Text}
    {first second : Nat}
    (leading : temporaryBase callee first <+: temporaryBase callee second) :
    first ≤ second := by
  rw [temporaryBase, temporaryBase, List.prefix_append_right_inj] at leading
  by_cases none : first = 0
  · omega
  · rw [if_neg none] at leading
    split at leading
    · exact absurd (List.prefix_nil.mp leading) (Text.ofNat_ne_nil first)
    · exact Text.le_of_ofNat_prefix leading

end NameSupply

/-- Numbering the base leads to the name: the text uses the base, and with every number from one on
that is smaller than that of the name. -/
def Text.NumbersUpTo (text base name : Text) : Prop :=
  text.Uses base ∧ ∃ number, 1 ≤ number ∧ name = base ++ Text.ofNat number ∧
    ∀ smaller, 1 ≤ smaller → smaller < number → text.Uses (base ++ Text.ofNat smaller)

/-- Two calls of one template share a temporary exactly if numbering the plain name of the earlier
one leads to the temporary of the later one. -/
theorem NameSupply.temporary_eq_temporary_iff
    {source : Text}
    {names : NameSupply}
    (made : ofSource .fresh source = .ok names)
    (callee : Text)
    {earlier later : Nat}
    (less : earlier < later) :
    names.temporary callee earlier = names.temporary callee later ↔
      source.NumbersUpTo (temporaryBase callee earlier) (names.temporary callee later) := by
  have firstEarlier := isFirstFree_temporary_of_ofSource made callee earlier
  have firstLater := isFirstFree_temporary_of_ofSource made callee later
  constructor
  · intro same
    rcases firstEarlier with ⟨_, plain⟩ | ⟨used, number, positive, name_eq, _, passed⟩
    · -- the plain name of the earlier call is too short for the later one
      have leading := firstLater.base_prefix
      rw [← same, plain] at leading
      have := le_of_temporaryBase_prefix leading
      omega
    · exact ⟨used, number, positive, same.symm.trans name_eq, passed⟩
  · rintro ⟨used, number, positive, name_eq, passed⟩
    exact firstEarlier.unique
      (.inr ⟨used, number, positive, name_eq, firstLater.not_taken, passed⟩)

/-! ## Setups of repeated calls -/

namespace ThreadingContext

variable (context : ThreadingContext)

/-- A call that returns a value is bound, behind the setup of the calls in front of it, to the
temporary that counts those calls. -/
theorem exists_setupFrom_eq_append
    (earlier : List Text)
    {pieces : List (Piece Call)}
    {left right : List Call}
    {call : Call}
    (calls : pieces.filterMap Piece.phrase? = left ++ call :: right)
    (valued : context.signatures call.callee = some ⟨.producing, .valued⟩) :
    ∃ setup others rest, others.filterMap Piece.phrase? = right ∧
      context.setupFrom earlier pieces = setup ++
        binding (context.names.temporary call.callee
          (((left.map Call.callee).reverse ++ earlier).count call.callee)) call ::
          (rest ++ context.setupFrom (call.callee :: ((left.map Call.callee).reverse ++ earlier))
            others) := by
  obtain ⟨front, behind, rfl, front_eq, behind_eq⟩ :=
    Form.exists_eq_append_of_filterMap_eq_append calls
  refine ⟨context.setupFrom earlier front, behind,
    [Accumulator.appending context.names.accumulator (Accumulator.project
      (context.names.temporary call.callee
        (((left.map Call.callee).reverse ++ earlier).count call.callee)) 0)], behind_eq, ?_⟩
  rw [setupFrom_append, front_eq, setupFrom, setupOf, valued]
  rfl

end ThreadingContext

/-- Two calls of one template in a statement share a temporary exactly if the source uses the plain
name of the earlier one, and with every number up to the temporary of the later one.  The statements
that bind them stand in front of the statement in the order of the calls, so that the later one then
overwrites the earlier one. -/
theorem NameSupply.repeated_calls_share_temporary_iff
    {source : Text}
    {names : NameSupply}
    (made : ofSource .fresh source = .ok names) :
    (∀ callee earlier later, earlier < later →
      (names.temporary callee earlier = names.temporary callee later ↔
        source.NumbersUpTo (temporaryBase callee earlier) (names.temporary callee later))) ∧
    ∀ (signatures : Signatures) (statement : Statement) (left middle right : List Call)
      (first second : Call),
      Call.form.phrases statement.interior = left ++ first :: (middle ++ second :: right) →
      second.callee = first.callee →
      signatures first.callee = some ⟨.producing, .valued⟩ →
      ∃ earlier later front between behind, earlier < later ∧
        ThreadingContext.setupStatements ⟨names, signatures⟩ statement =
          front ++ ThreadingContext.binding (names.temporary first.callee earlier) first ::
            (between ++ ThreadingContext.binding (names.temporary first.callee later) second ::
              behind) := by
  refine ⟨fun callee earlier later => temporary_eq_temporary_iff made callee, ?_⟩
  intro signatures statement left middle right first second calls same valued
  let context : ThreadingContext := ⟨names, signatures⟩
  obtain ⟨front, others, rest, others_eq, setup_eq⟩ :=
    context.exists_setupFrom_eq_append [] calls valued
  have secondValued : context.signatures second.callee = some ⟨.producing, .valued⟩ := by
    rw [same]
    exact valued
  obtain ⟨between, last, more, _, others_setup⟩ := context.exists_setupFrom_eq_append
    (first.callee :: ((left.map Call.callee).reverse ++ [])) others_eq secondValued
  rw [others_setup, ← List.append_assoc] at setup_eq
  rw [same] at setup_eq
  refine ⟨_, _, front, rest ++ between, _, ?_, setup_eq⟩
  simp only [List.count_append, List.count_cons_self]
  omega

/-- The source uses only the numbered name, so the plain name of the first call stays free. -/
theorem NameSupply.repeated_calls_share_temporary_iff_apart :
    let signatures : Signatures := fun _ => some ⟨.producing, .valued⟩
    let statement : Statement := ⟨"add (execTemplate \"a\" 1) (execTemplate \"a\" 2)".toList⟩
    let first : Call := ⟨[' '], "a".toList, " 1".toList⟩
    let second : Call := ⟨[' '], "a".toList, " 2".toList⟩
    ∃ names, ofSource .fresh "{{$aOutput1}}".toList = .ok names ∧
      names.temporary "a".toList 0 = "$aOutput".toList ∧
      names.temporary "a".toList 1 = "$aOutput11".toList ∧
      names.temporary "a".toList 0 ≠ names.temporary "a".toList 1 ∧
      ∃ earlier later front between behind, earlier < later ∧
        ThreadingContext.setupStatements ⟨names, signatures⟩ statement =
          front ++ ThreadingContext.binding (names.temporary first.callee earlier) first ::
            (between ++ ThreadingContext.binding (names.temporary first.callee later) second ::
              behind) := by
  intro signatures statement first second
  have free : ¬Text.Uses "{{$aOutput1}}".toList (temporaryBase "a".toList 0) := by
    rw [← Text.mem_variableNames_iff]
    decide +kernel
  have calls : Call.form.phrases statement.interior = [] ++ first :: ([] ++ second :: []) := by
    decide +kernel
  obtain ⟨shared, bound⟩ := repeated_calls_share_temporary_iff
    (rfl : ofSource .fresh "{{$aOutput1}}".toList = .ok _)
  refine ⟨_, rfl, by decide +kernel, by decide +kernel, ?_, ?_⟩
  · exact fun same => free ((shared _ _ _ (by decide)).mp same).1
  · exact bound signatures statement [] [] [] first second calls rfl rfl

/-- The source uses the plain name, so the first call moves on to the name of the second one: the
statement adds the value of the second call to itself. -/
theorem NameSupply.repeated_calls_share_temporary :
    let statement (interior : String) : Text := (Statement.mk interior.toList).text
    let newline : Text := ['\n']
    ∃ names, ofSource .fresh (statement "$aOutput := 1") = .ok names ∧
      names.temporary "a".toList 0 = names.temporary "a".toList 1 ∧
      ThreadingContext.threadStatement ⟨names, fun _ => some ⟨.producing, .valued⟩⟩ []
          ⟨"add (execTemplate \"a\" 1) (execTemplate \"a\" 2)".toList⟩ =
        statement "$aOutput1 := execTemplate \"a\" 1" ++ newline ++
          statement "$output = joinStr \"\\n\" $output (index $aOutput1 0)" ++ newline ++
          statement "$aOutput1 := execTemplate \"a\" 2" ++ newline ++
          statement "$output = joinStr \"\\n\" $output (index $aOutput1 0)" ++ newline ++
          statement "add ((index $aOutput1 1)) ((index $aOutput1 1))" := by
  refine ⟨_, rfl, by decide +kernel, by decide +kernel⟩

end OutputThreading
