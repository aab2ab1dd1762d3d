import Mathlib.Data.List.Dedup
import OutputThreading.Proofs.NameSupply.Repetition
import OutputThreading.Proofs.Offset.Cut

/-!
# Free names with bounded numbers

The numbers that make a name free are 32 bits wide with a sign.  A source with fewer than 2 ^ 31
variables leaves one of them free, so the search never runs out of numbers (`Offset.temporary_eq`).
-/

namespace OutputThreading
namespace Offset

/-- The number of values of a 32-bit counter that are not negative. -/
def counterLimit : Nat := 0x80000000

/-- The first name that is not taken among `base` with the numbers from `number` on, as long as the
counter goes. -/
def freeNumbered (taken : List Text) (base : Text) (number : Nat) : Option Text :=
  if number < counterLimit then
    if taken.contains (base ++ Text.ofNat number) then freeNumbered taken base (number + 1)
    else some (base ++ Text.ofNat number)
  else none
termination_by counterLimit - number

/-- The name itself if it is free, else with the first number that makes it free. -/
def freeName (taken : List Text) (base : Text) : Option Text :=
  if taken.contains base then freeNumbered taken base 1 else some base

/-- The names generated for a source. -/
def ofSource (naming : Naming) (text : Text) : Checked NameSupply :=
  match naming with
  | .reserved => .ofExcept (NameSupply.ofSource .reserved text)
  | .fresh => do
      let accumulator ← (freeName text.variableNames Accumulator.defaultName : Option _)
      return ⟨.fresh, accumulator, accumulator :: text.variableNames⟩

/-- The variable for the result of a call. -/
def temporary (names : NameSupply) (callee : Text) (earlier : Nat) : Option Text :=
  match names.naming with
  | .reserved => some (NameSupply.temporaryBase callee earlier)
  | .fresh => freeName names.taken (NameSupply.temporaryBase callee earlier)

/-- The source has fewer variables than the counter has values, if its names are to be avoided. -/
def HasFewVariables (naming : Naming) (text : Text) : Prop :=
  naming = .fresh → text.variableNames.dedup.length < counterLimit

instance (naming : Naming) (text : Text) : Decidable (HasFewVariables naming text) :=
  inferInstanceAs (Decidable (naming = .fresh → _))

/-- The search passes over taken names and stops at the first free one. -/
theorem freeNumbered_eq
    {taken : List Text}
    {base : Text}
    {number found : Nat}
    (least : number ≤ found)
    (most : found < counterLimit)
    (free : base ++ Text.ofNat found ∉ taken)
    (passed : ∀ smaller, number ≤ smaller → smaller < found → base ++ Text.ofNat smaller ∈ taken) :
    freeNumbered taken base number = some (base ++ Text.ofNat found) := by
  induction steps : found - number generalizing number with
  | zero =>
      obtain rfl : number = found := by omega
      rw [freeNumbered, if_pos most, if_neg (by simpa using free)]
  | succ steps inductionHypothesis =>
      have occupied := passed number (Nat.le_refl number) (by omega)
      rw [freeNumbered, if_pos (by omega), if_pos (by simpa using occupied)]
      exact inductionHypothesis (by omega) (fun smaller later => passed smaller (by omega)) (by omega)

/-- The number that makes a name free is at most the number of names in use, because the plain name
and all smaller numbers are in use. -/
theorem le_length_of_numbered_mem
    {used : List Text}
    {base : Text}
    {number : Nat}
    (plain : base ∈ used)
    (passed : ∀ smaller, 1 ≤ smaller → smaller < number → base ++ Text.ofNat smaller ∈ used) :
    number ≤ used.dedup.length := by
  let numbered := (List.range' 1 (number - 1)).map fun smaller => base ++ Text.ofNat smaller
  have distinct : (base :: numbered).Nodup := by
    refine List.nodup_cons.mpr ⟨fun member => ?_, ?_⟩
    · obtain ⟨smaller, _, same⟩ := List.mem_map.mp member
      exact Text.ofNat_ne_nil smaller (List.append_right_eq_self.mp same)
    · exact List.Nodup.map (NameSupply.numbered_injective base) List.nodup_range'
  have inside : base :: numbered ⊆ used.dedup := by
    intro name member
    rw [List.mem_dedup]
    rcases List.mem_cons.mp member with rfl | member
    · exact plain
    · obtain ⟨smaller, range, rfl⟩ := List.mem_map.mp member
      obtain ⟨least, most⟩ := List.mem_range'_1.mp range
      exact passed smaller least (by omega)
  have bound := (List.subperm_of_subset distinct inside).length_le
  rw [List.length_cons, List.length_map, List.length_range'] at bound
  omega

/-- If a text has few variables, the first name that it does not use is found. -/
theorem freeName_eq
    {text base : Text}
    {taken : List Text}
    (few : text.variableNames.dedup.length < counterLimit)
    (first : NameSupply.IsFirstFree text.Uses base (NameSupply.freeName taken base)) :
    freeName taken base = some (NameSupply.freeName taken base) := by
  rw [freeName]
  rcases NameSupply.freeName_isFirstFree taken base with
    ⟨free, equal⟩ | ⟨occupied, number, least, equal, free, passed⟩
  · rw [if_neg (by simpa using free), equal]
  · rw [if_pos (by simpa using occupied), equal]
    rw [equal] at first free
    refine freeNumbered_eq least ?_ free passed
    rcases first with ⟨_, same⟩ | ⟨used, other, _, same, _, usedPassed⟩
    · exact absurd (List.append_right_eq_self.mp same) (Text.ofNat_ne_nil number)
    · obtain rfl := NameSupply.numbered_injective base same
      simp only [← Text.mem_variableNames_iff] at used usedPassed
      exact Nat.lt_of_le_of_lt (le_length_of_numbered_mem used usedPassed) few

/-- The temporary of every call is found. -/
theorem temporary_eq
    {naming : Naming}
    {text : Text}
    {names : NameSupply}
    (few : HasFewVariables naming text)
    (made : NameSupply.ofSource naming text = .ok names)
    (callee : Text)
    (earlier : Nat) :
    temporary names callee earlier = some (names.temporary callee earlier) := by
  cases naming with
  | reserved =>
      obtain rfl := NameSupply.ofSource_reserved_eq_ok made
      rfl
  | fresh =>
      have first := NameSupply.isFirstFree_temporary_of_ofSource made callee earlier
      obtain rfl := Except.ok.inj made
      exact freeName_eq (few rfl) first

end Offset
end OutputThreading
