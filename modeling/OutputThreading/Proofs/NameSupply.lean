import OutputThreading.NameSupply

/-!
# The shape of generated names

Every name that is generated for a source consists of a dollar sign, letters, digits and
underscores (`NameSupply.temporary_isName`), and the accumulator is always the default name with
digits behind it (`NameSupply.IsGenerated.accumulator_eq`).  So no generated name holds white space,
a quote, a brace or a parenthesis, and reading code around it stays possible.
-/

namespace OutputThreading
namespace Character

/-- A character that may stand in a generated name. -/
def isNamePart (c : Char) : Bool :=
  c = '$' || c = '_' || isAlphanumeric c

theorem isAlphanumeric_of_isDigit {c : Char} (digit : c.isDigit = true) :
    isAlphanumeric c = true := by
  simp [isAlphanumeric, Char.isAlphanum, digit]

/-- Two sets of characters given by ranges that keep apart have no member in common. -/
theorem Ranges.has_eq_false_of_has
    {left right : Ranges}
    (apart : ∀ first ∈ left, ∀ second ∈ right, first.2 < second.1 ∨ second.2 < first.1)
    {c : Char}
    (member : left.has c = true) :
    right.has c = false := by
  rw [Bool.eq_false_iff]
  intro other
  obtain ⟨first, firstMember, firstLower, firstUpper⟩ := (left.has_eq_true_iff c).mp member
  obtain ⟨second, secondMember, secondLower, secondUpper⟩ := (right.has_eq_true_iff c).mp other
  have := apart first firstMember second secondMember
  omega

/-- All white space as ranges of code points. -/
def allSpaceRanges : Ranges :=
  (0x9, 0xD) :: (0x20, 0x20) :: spaceRanges

theorem allSpaceRanges_has_of_isSpace {c : Char} (space : isSpace c = true) :
    allSpaceRanges.has c = true := by
  simp only [isSpace, Bool.or_eq_true, Bool.and_eq_true, decide_eq_true_eq] at space
  rw [Ranges.has_eq_true_iff]
  rcases space with (rfl | control) | member
  · exact ⟨(0x20, 0x20), by simp [allSpaceRanges], by decide⟩
  · exact ⟨(0x9, 0xD), by simp [allSpaceRanges], control⟩
  · obtain ⟨range, rangeMember, bounds⟩ := (Ranges.has_eq_true_iff _ _).mp member
    exact ⟨range, by simp [allSpaceRanges, rangeMember], bounds⟩

/-- The ASCII letters and digits as ranges of code points. -/
def asciiAlphanumRanges : Ranges :=
  [(0x30, 0x39), (0x41, 0x5A), (0x61, 0x7A)]

theorem asciiAlphanumRanges_has_of_isAlphanum {c : Char} (alphanumeric : c.isAlphanum = true) :
    asciiAlphanumRanges.has c = true := by
  change (decide (c.val ≥ 'A'.val ∧ c.val ≤ 'Z'.val) ||
    (decide (c.val ≥ 'a'.val) && decide (c.val ≤ 'z'.val)) ||
      (decide (c.val ≥ '0'.val) && decide (c.val ≤ '9'.val))) = true at alphanumeric
  simp only [Bool.or_eq_true, Bool.and_eq_true, decide_eq_true_eq, ge_iff_le,
    UInt32.le_iff_toNat_le] at alphanumeric
  rw [Ranges.has_eq_true_iff]
  rcases alphanumeric with (upper | lower) | digit
  · exact ⟨(0x41, 0x5A), by simp [asciiAlphanumRanges], upper⟩
  · exact ⟨(0x61, 0x7A), by simp [asciiAlphanumRanges], lower⟩
  · exact ⟨(0x30, 0x39), by simp [asciiAlphanumRanges], digit⟩

theorem isAlphanum_eq_false_of_isSpace {c : Char} (space : isSpace c = true) :
    c.isAlphanum = false := by
  rw [Bool.eq_false_iff]
  intro alphanumeric
  have ascii := asciiAlphanumRanges_has_of_isAlphanum alphanumeric
  rw [Ranges.has_eq_false_of_has (by decide) (allSpaceRanges_has_of_isSpace space)] at ascii
  exact Bool.false_ne_true ascii

theorem alphabeticRanges_has_eq_false_of_isSpace {c : Char} (space : isSpace c = true) :
    alphabeticRanges.has c = false :=
  Ranges.has_eq_false_of_has (by decide +kernel) (allSpaceRanges_has_of_isSpace space)

theorem decimalRanges_has_eq_false_of_isSpace {c : Char} (space : isSpace c = true) :
    decimalRanges.has c = false :=
  Ranges.has_eq_false_of_has (by decide +kernel) (allSpaceRanges_has_of_isSpace space)

/-- White space is neither a letter nor a number. -/
theorem isAlphanumeric_eq_false_of_isSpace {c : Char} (space : isSpace c = true) :
    isAlphanumeric c = false := by
  have member := allSpaceRanges_has_of_isSpace space
  have notNumber : otherNumberRanges.has c = false :=
    Ranges.has_eq_false_of_has (by decide +kernel) member
  simp [isAlphanumeric, isAlphanum_eq_false_of_isSpace space,
    alphabeticRanges_has_eq_false_of_isSpace space, decimalRanges_has_eq_false_of_isSpace space,
    notNumber]

/-- White space ends a word. -/
theorem isWord_eq_false_of_isSpace {c : Char} (space : isSpace c = true) : isWord c = false := by
  have member := allSpaceRanges_has_of_isSpace space
  have notUnderscore : c ≠ '_' := by
    rintro rfl
    exact absurd space (by decide)
  have notConnector : connectorRanges.has c = false :=
    Ranges.has_eq_false_of_has (by decide +kernel) member
  have notJoiner : joinControlRanges.has c = false :=
    Ranges.has_eq_false_of_has (by decide +kernel) member
  have notMark : markRanges.has c = false :=
    Ranges.has_eq_false_of_has (by decide +kernel) member
  simp [isWord, isAlphanum_eq_false_of_isSpace space, notUnderscore, notConnector, notJoiner,
    alphabeticRanges_has_eq_false_of_isSpace space, notMark,
    decimalRanges_has_eq_false_of_isSpace space]

theorem isSpace_eq_false_of_isNamePart {c : Char} (part : isNamePart c = true) :
    isSpace c = false := by
  rw [Bool.eq_false_iff]
  intro space
  simp only [isNamePart, Bool.or_eq_true, decide_eq_true_eq,
    isAlphanumeric_eq_false_of_isSpace space, Bool.false_eq_true, or_false] at part
  rcases part with rfl | rfl <;> exact absurd space (by decide)

theorem isNamePart_eq_false_of_isSpace {c : Char} (space : isSpace c = true) :
    isNamePart c = false := by
  rw [Bool.eq_false_iff]
  intro part
  exact Bool.false_ne_true ((isSpace_eq_false_of_isNamePart part).symm.trans space)

end Character

namespace Text

/-- The text consists of characters that may stand in a generated name. -/
def IsName (text : Text) : Prop :=
  ∀ c ∈ text, Character.isNamePart c = true

instance (text : Text) : Decidable text.IsName :=
  List.decidableBAll _ text

theorem IsName.append {left right : Text} (first : left.IsName) (second : right.IsName) :
    IsName (left ++ right) := by
  intro c member
  rcases List.mem_append.mp member with member | member
  · exact first c member
  · exact second c member

theorem IsName.of_suffix {text part : Text} (name : text.IsName) (suffix : part <:+ text) :
    part.IsName :=
  fun c member => name c (suffix.subset member)

/-- A character that stands in no name does not stand in this one. -/
theorem IsName.notMem
    {text : Text}
    (name : text.IsName)
    {c : Char}
    (foreign : Character.isNamePart c = false) :
    c ∉ text := by
  intro member
  rw [name c member] at foreign
  cases foreign

theorem isDigit_of_mem_ofNat {number : Nat} {c : Char} (member : c ∈ ofNat number) :
    c.isDigit = true :=
  Nat.isDigit_of_mem_toDigits (by decide) (by decide) member

theorem ofNat_ne_nil (number : Nat) : ofNat number ≠ [] :=
  Nat.toDigits_ne_nil

theorem isName_of_digits {digits : Text} (numeric : ∀ c ∈ digits, c.isDigit = true) :
    digits.IsName := by
  intro c member
  simp [Character.isNamePart, Character.isAlphanumeric_of_isDigit (numeric c member)]

end Text

namespace NameSupply

/-! ## Free names -/

theorem exists_freeNumbered_eq
    (taken : List Text)
    (base : Text)
    (number tries : Nat) :
    ∃ chosen, freeNumbered taken base number tries = base ++ Text.ofNat chosen := by
  induction tries generalizing number with
  | zero => exact ⟨number, rfl⟩
  | succ tries inductionHypothesis =>
      rw [freeNumbered]
      split
      · exact inductionHypothesis (number + 1)
      · exact ⟨number, rfl⟩

/-- A free name is its base with digits behind it, possibly none. -/
theorem exists_freeName_eq (taken : List Text) (base : Text) :
    ∃ digits : Text, (∀ c ∈ digits, c.isDigit = true) ∧ freeName taken base = base ++ digits := by
  rw [freeName]
  split
  · obtain ⟨chosen, equal⟩ := exists_freeNumbered_eq taken base 1 taken.length
    exact ⟨Text.ofNat chosen, fun c => Text.isDigit_of_mem_ofNat, equal⟩
  · exact ⟨[], by simp, by simp⟩

/-! ## Temporaries -/

theorem stem_isName (callee : Text) : (stem callee).IsName := by
  intro c member
  obtain ⟨d, _, rfl⟩ := List.mem_map.mp member
  split
  next kept =>
    simp only [Bool.or_eq_true, decide_eq_true_eq] at kept
    rcases kept with letter | rfl
    · simp [Character.isNamePart, letter]
    · decide
  next => decide

theorem temporaryBase_isName (callee : Text) (earlier : Nat) :
    (temporaryBase callee earlier).IsName := by
  have number : Text.IsName (if earlier = 0 then [] else Text.ofNat earlier) := by
    split
    · exact fun c member => absurd member List.not_mem_nil
    · exact Text.isName_of_digits fun c => Text.isDigit_of_mem_ofNat
  have dollar : Text.IsName ['$'] := by decide
  have word : Text.IsName "Output".toList := by decide
  exact ((dollar.append (stem_isName callee)).append word).append number

/-- A temporary consists of a dollar sign, letters, digits and underscores. -/
theorem temporary_isName (names : NameSupply) (callee : Text) (earlier : Nat) :
    (names.temporary callee earlier).IsName := by
  rw [temporary]
  cases names.naming with
  | reserved => exact temporaryBase_isName callee earlier
  | fresh =>
      obtain ⟨digits, numeric, equal⟩ :=
        exists_freeName_eq names.taken (temporaryBase callee earlier)
      rw [equal]
      exact (temporaryBase_isName callee earlier).append (Text.isName_of_digits numeric)

theorem exists_temporary_eq_cons (names : NameSupply) (callee : Text) (earlier : Nat) :
    ∃ name, names.temporary callee earlier = '$' :: name := by
  unfold temporary
  cases names.naming with
  | reserved => exact ⟨_, rfl⟩
  | fresh =>
      obtain ⟨digits, _, equal⟩ :=
        exists_freeName_eq names.taken (temporaryBase callee earlier)
      exact ⟨_, equal⟩

/-! ## The accumulator -/

/-- The names were generated for some source. -/
def IsGenerated (names : NameSupply) : Prop :=
  ∃ naming source, ofSource naming source = .ok names

theorem isGenerated_reserved : IsGenerated ⟨.reserved, Accumulator.defaultName, []⟩ := by
  refine ⟨.reserved, [], ?_⟩
  rw [ofSource, reservedVariable?, Form.lined, Form.split_nil]
  rfl

/-- The accumulator is the default name with digits behind it, possibly none. -/
theorem IsGenerated.accumulator_eq {names : NameSupply} (generated : names.IsGenerated) :
    ∃ digits : Text, (∀ c ∈ digits, c.isDigit = true) ∧
      names.accumulator = Accumulator.defaultName ++ digits := by
  obtain ⟨naming, source, made⟩ := generated
  cases naming with
  | reserved =>
      simp only [ofSource] at made
      split at made
      · cases made
      · cases made
        exact ⟨[], by simp, by simp⟩
  | fresh =>
      simp only [ofSource, Except.ok.injEq] at made
      subst made
      exact exists_freeName_eq source.variableNames Accumulator.defaultName

theorem IsGenerated.accumulator_isName {names : NameSupply} (generated : names.IsGenerated) :
    names.accumulator.IsName := by
  obtain ⟨digits, numeric, equal⟩ := generated.accumulator_eq
  have word : Accumulator.defaultName.IsName := by decide
  rw [equal]
  exact word.append (Text.isName_of_digits numeric)

theorem IsGenerated.dollar_mem_accumulator {names : NameSupply} (generated : names.IsGenerated) :
    '$' ∈ names.accumulator := by
  obtain ⟨digits, _, equal⟩ := generated.accumulator_eq
  rw [equal]
  exact List.mem_append_left digits (by decide)

/-- A character that is no digit stands in the accumulator only if it stands in the default name. -/
theorem IsGenerated.notMem_accumulator
    {names : NameSupply}
    (generated : names.IsGenerated)
    {c : Char}
    (notDigit : c.isDigit = false)
    (absent : c ∉ Accumulator.defaultName) :
    c ∉ names.accumulator := by
  obtain ⟨digits, numeric, equal⟩ := generated.accumulator_eq
  rw [equal, List.mem_append]
  rintro (member | member)
  · exact absent member
  · rw [numeric c member] at notDigit
    cases notDigit

end NameSupply
end OutputThreading
