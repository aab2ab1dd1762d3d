import Mathlib.Data.List.Nodup
import Mathlib.Data.List.Perm.Subperm
import OutputThreading.Proofs.Form.Occurrences
import OutputThreading.Proofs.Marker.Placement
import OutputThreading.Proofs.Variable

/-!
# Generated names and the variables of the source

A generated name is never a variable of the source (`NameSupply.generated_names_are_new`).  Under
fresh naming the search among numbered names ends, because a list of taken names cannot hold more
numbered names than its length (`NameSupply.freeName_isFirstFree`).  Under reserved naming the names
could only clash with variables that contain the word output, and the first of these is reported
(`NameSupply.exists_isFirstReserved_of_reservedVariable?`).
-/

namespace OutputThreading

/-! ## The variables of a text -/

namespace Variable

/-- The variable stands in the text behind `before`: a dollar sign and a word that goes no
further. -/
def StandsBehind (token : Variable) (before text : Text) : Prop :=
  token.name ≠ [] ∧ (∀ c ∈ token.name, Character.isWord c = true) ∧
    ∃ behind, text = before ++ token.text ++ behind ∧ Marker.startsOutsideWord behind = true

/-- A variable is read exactly where a dollar sign stands with a word behind it, as long as that
word goes. -/
theorem read?_eq_some_iff {text rest : Text} {token : Variable} :
    read? text = some (token, rest) ↔
      text = token.text ++ rest ∧ token.name ≠ [] ∧
        (∀ c ∈ token.name, Character.isWord c = true) ∧ Marker.startsOutsideWord rest = true := by
  constructor
  · intro found
    refine ⟨eq_text_append_of_read? found, ?_⟩
    simp only [read?, Option.bind_eq_bind, Option.bind_eq_some_iff,
      Option.ite_none_left_eq_some, Option.some.injEq, Prod.mk.injEq] at found
    obtain ⟨after, _, named, rfl, rfl⟩ := found
    refine ⟨named, fun c member => List.mem_takeWhile_imp member, ?_⟩
    cases ends : after.dropWhile Character.isWord with
    | nil => rfl
    | cons c rest =>
        have outside := List.head?_dropWhile_not Character.isWord after
        rw [ends] at outside
        simpa [Marker.startsOutsideWord] using outside
  · rintro ⟨rfl, named, word, outside⟩
    have taken := Marker.takeWhile_isWord_append word outside
    have dropped : (token.name ++ rest).dropWhile Character.isWord = rest := by
      have whole := List.takeWhile_append_dropWhile (p := Character.isWord) (l := token.name ++ rest)
      rw [taken] at whole
      exact List.append_cancel_left whole
    rw [text, List.cons_append, read?_dollar, taken, dropped, if_neg named]

theorem form_keepsApart : form.KeepsApart := by
  intro text rest token found
  obtain ⟨_, _, word, _⟩ := read?_eq_some_iff.mp found
  refine .of_forall_mem (fun c member behind => read?_cons_of_ne ?_ behind) rest
  rintro rfl
  have dollar := word '$' member
  rw [isWord_dollar] at dollar
  cases dollar

/-- A variable stands where one of the occurrences is. -/
theorem standsBehind_iff {token : Variable} {before text : Text} :
    token.StandsBehind before text ↔ ∃ after, ⟨before, token, after⟩ ∈ form.occurrences text := by
  simp only [form_keepsApart.mem_occurrences_iff]
  constructor
  · rintro ⟨named, word, behind, whole, outside⟩
    exact ⟨behind, whole, read?_eq_some_iff.mpr ⟨rfl, named, word, outside⟩⟩
  · rintro ⟨after, whole, read⟩
    obtain ⟨_, named, word, outside⟩ := read?_eq_some_iff.mp read
    exact ⟨named, word, after, whole, outside⟩

/-- The variable contains the word output, capitalised or not. -/
def NamesOutput (token : Variable) : Prop :=
  "output".toList <:+: token.text ∨ "Output".toList <:+: token.text

theorem isReserved_eq_true_iff (token : Variable) :
    token.isReserved = true ↔ token.NamesOutput := by
  have behindDollar {c : Char} {word : Text} (letter : c ≠ '$') :
      c :: word <:+: token.text ↔ c :: word <:+: token.name := by
    rw [text, List.infix_cons_iff]
    refine or_iff_right fun leading => ?_
    exact letter (List.cons_prefix_cons.mp leading).1
  rw [isReserved, Bool.or_eq_true, Text.includes_eq_true_iff, Text.includes_eq_true_iff]
  exact or_congr (behindDollar (by decide)).symm (behindDollar (by decide)).symm

end Variable

/-- The text uses the variable, given with its dollar sign. -/
def Text.Uses (text name : Text) : Prop :=
  ∃ token before, Variable.StandsBehind token before text ∧ name = token.text

theorem Text.mem_variableNames_iff {text name : Text} :
    name ∈ text.variableNames ↔ text.Uses name := by
  rw [variableNames, ← Form.map_phrase_occurrences, List.map_map, List.mem_map]
  constructor
  · rintro ⟨occurrence, member, rfl⟩
    exact ⟨occurrence.phrase, occurrence.before,
      Variable.standsBehind_iff.mpr ⟨occurrence.after, member⟩, rfl⟩
  · rintro ⟨token, before, stands, rfl⟩
    obtain ⟨after, member⟩ := Variable.standsBehind_iff.mp stands
    exact ⟨_, member, rfl⟩

namespace NameSupply

/-! ## Free names -/

theorem numbered_injective (base : Text) :
    Function.Injective fun number => base ++ Text.ofNat number := by
  intro first second same
  have digits : Nat.toDigits 10 first = Nat.toDigits 10 second := List.append_cancel_left same
  have read := congrArg (fun digits => Nat.ofDigitChars 10 digits 0) digits
  simpa using read

/-- The name is the base if that is free, else the base with the least number from one on that makes
it free. -/
def IsFirstFree (taken : Text → Prop) (base name : Text) : Prop :=
  (¬taken base ∧ name = base) ∨
    (taken base ∧ ∃ number, 1 ≤ number ∧ name = base ++ Text.ofNat number ∧ ¬taken name ∧
      ∀ smaller, 1 ≤ smaller → smaller < number → taken (base ++ Text.ofNat smaller))

theorem IsFirstFree.not_taken
    {taken : Text → Prop}
    {base name : Text}
    (first : IsFirstFree taken base name) :
    ¬taken name := by
  rcases first with ⟨free, rfl⟩ | ⟨_, number, _, _, free, _⟩
  · exact free
  · exact free

/-- The search passes over taken names only and stops at a free one, unless it has used up its
tries. -/
theorem exists_freeNumbered_eq_of_search
    (taken : List Text)
    (base : Text)
    (number tries : Nat) :
    ∃ found, number ≤ found ∧ freeNumbered taken base number tries = base ++ Text.ofNat found ∧
      (∀ smaller, number ≤ smaller → smaller < found → base ++ Text.ofNat smaller ∈ taken) ∧
      (base ++ Text.ofNat found ∉ taken ∨ found = number + tries) := by
  induction tries generalizing number with
  | zero => exact ⟨number, Nat.le_refl number, rfl, by omega, .inr rfl⟩
  | succ tries inductionHypothesis =>
      rw [freeNumbered]
      split
      next occupied =>
        obtain ⟨found, later, equal, passed, stops⟩ := inductionHypothesis (number + 1)
        refine ⟨found, by omega, equal, fun smaller least less => ?_, ?_⟩
        · rcases Nat.eq_or_lt_of_le least with rfl | more
          · simpa using occupied
          · exact passed smaller more less
        · rcases stops with free | last
          · exact .inl free
          · exact .inr (by omega)
      next free => exact ⟨number, Nat.le_refl number, rfl, by omega, .inl (by simpa using free)⟩

/-- A list of taken names holds no more numbered names than its length. -/
theorem exists_numbered_notMem (taken : List Text) (base : Text) :
    ∃ number, 1 ≤ number ∧ number ≤ taken.length + 1 ∧ base ++ Text.ofNat number ∉ taken := by
  by_contra! occupied
  let numbered := (List.range' 1 (taken.length + 1)).map fun number => base ++ Text.ofNat number
  have distinct : numbered.Nodup := List.Nodup.map (numbered_injective base) List.nodup_range'
  have inside : numbered ⊆ taken := by
    intro name member
    obtain ⟨number, range, rfl⟩ := List.mem_map.mp member
    obtain ⟨least, most⟩ := List.mem_range'_1.mp range
    exact occupied number least (by omega)
  have bound := (List.subperm_of_subset distinct inside).length_le
  rw [List.length_map, List.length_range'] at bound
  omega

theorem freeName_isFirstFree (taken : List Text) (base : Text) :
    IsFirstFree (· ∈ taken) base (freeName taken base) := by
  rw [freeName]
  split
  next occupied =>
    obtain ⟨found, least, equal, passed, stops⟩ :=
      exists_freeNumbered_eq_of_search taken base 1 taken.length
    refine .inr ⟨by simpa using occupied, found, least, equal, ?_, passed⟩
    rw [equal]
    rcases stops with free | last
    · exact free
    · -- all tries are used up, so the free name is the last one
      obtain ⟨number, positive, bound, free⟩ := exists_numbered_notMem taken base
      rcases Nat.lt_or_ge number found with less | more
      · exact absurd (passed number positive less) free
      · obtain rfl : found = number := by omega
        exact free
  next free => exact .inl ⟨by simpa using free, rfl⟩

/-! ## Reserved names -/

theorem lined_eq_map_occurrences (text : Text) :
    Variable.form.lined text = (Variable.form.occurrences text).map fun occurrence =>
      (1 + occurrence.before.breaks, occurrence.phrase) :=
  Variable.form.linedFrom_add_breaks 1 [] (Variable.form.split text)

/-- The variable is the first one of the text that contains the word output, and stands behind
`before`. -/
def IsFirstReserved (token : Variable) (before text : Text) : Prop :=
  token.StandsBehind before text ∧ token.NamesOutput ∧
    ∀ other otherBefore, Variable.StandsBehind other otherBefore text → other.NamesOutput →
      before.length ≤ otherBefore.length

theorem reservedVariable?_eq_none_iff (text : Text) :
    reservedVariable? text = none ↔
      ∀ token before, Variable.StandsBehind token before text → ¬token.NamesOutput := by
  rw [reservedVariable?, lined_eq_map_occurrences, List.find?_eq_none]
  constructor
  · intro none token before stands
    obtain ⟨after, member⟩ := Variable.standsBehind_iff.mp stands
    rw [← Variable.isReserved_eq_true_iff]
    exact none _ (List.mem_map_of_mem member)
  · intro none entry member
    obtain ⟨occurrence, inside, rfl⟩ := List.mem_map.mp member
    have stands := Variable.standsBehind_iff.mpr ⟨occurrence.after, inside⟩
    have unreserved := none _ _ stands
    rwa [← Variable.isReserved_eq_true_iff] at unreserved

/-- The reserved variable that is reported is the first one of the text. -/
theorem exists_isFirstReserved_of_reservedVariable?
    {text : Text}
    {line : Nat}
    {token : Variable}
    (found : reservedVariable? text = some (line, token)) :
    ∃ before, IsFirstReserved token before text ∧ line = 1 + before.breaks := by
  rw [reservedVariable?, lined_eq_map_occurrences, List.find?_eq_some_iff_append] at found
  obtain ⟨reserved, passed, others, parts, unreserved⟩ := found
  obtain ⟨front, rest, occurrences_eq, rfl, rest_eq⟩ := List.map_eq_append_iff.mp parts
  obtain ⟨occurrence, behind, rfl, entry_eq, rfl⟩ := List.map_eq_cons_iff.mp rest_eq
  obtain ⟨rfl, rfl⟩ := Prod.mk.inj entry_eq
  refine ⟨occurrence.before, ⟨?_, occurrence.phrase.isReserved_eq_true_iff.mp reserved, ?_⟩, rfl⟩
  · refine Variable.standsBehind_iff.mpr ⟨occurrence.after, ?_⟩
    rw [occurrences_eq]
    exact List.mem_append_right front List.mem_cons_self
  · intro other otherBefore stands otherReserved
    obtain ⟨after, member⟩ := Variable.standsBehind_iff.mp stands
    rw [occurrences_eq, List.mem_append, List.mem_cons] at member
    rcases member with earlier | rfl | later
    · have skipped : (!other.isReserved) = true := unreserved _ (List.mem_map_of_mem earlier)
      rw [other.isReserved_eq_true_iff.mpr otherReserved] at skipped
      cases skipped
    · exact Nat.le_refl _
    · have ordered := Variable.form.pairwise_occurrencesFrom [] (Variable.form.split text)
      rw [← Form.occurrences, occurrences_eq, List.pairwise_append, List.pairwise_cons] at ordered
      have order : (occurrence.before ++ Variable.form.write occurrence.phrase).length ≤
          otherBefore.length := (ordered.2.1.1 _ later).length_le
      rw [List.length_append] at order
      omega

/-- Reserved names are generated unless the text uses a variable that contains the word output. -/
theorem ofSource_reserved_eq_error_iff (text : Text) :
    (∃ error, ofSource .reserved text = .error error) ↔
      ∃ token before, Variable.StandsBehind token before text ∧ token.NamesOutput := by
  have none_iff := reservedVariable?_eq_none_iff text
  rw [ofSource]
  split
  next line token found =>
    obtain ⟨before, first, _⟩ := exists_isFirstReserved_of_reservedVariable? found
    exact iff_of_true ⟨_, rfl⟩ ⟨token, before, first.1, first.2.1⟩
  next none =>
    refine iff_of_false (by simp) ?_
    rintro ⟨token, before, stands, reserved⟩
    exact none_iff.mp none token before stands reserved

/-! ## No capture -/

/-- Under reserved naming, a name that contains the word output is no variable of the source. -/
theorem not_uses_of_ofSource_reserved
    {text : Text}
    {names : NameSupply}
    (made : ofSource .reserved text = .ok names)
    {name : Text}
    (reserved : "output".toList <:+: name ∨ "Output".toList <:+: name) :
    ¬text.Uses name := by
  rintro ⟨token, before, stands, rfl⟩
  obtain ⟨error, failed⟩ := (ofSource_reserved_eq_error_iff text).mpr ⟨token, before, stands, reserved⟩
  rw [made] at failed
  cases failed

theorem word_infix_temporaryBase (callee : Text) (earlier : Nat) :
    "Output".toList <:+: temporaryBase callee earlier :=
  ⟨['$'] ++ stem callee, if earlier = 0 then [] else Text.ofNat earlier, rfl⟩

theorem ofSource_reserved_eq_ok
    {text : Text}
    {names : NameSupply}
    (made : ofSource .reserved text = .ok names) :
    names = ⟨.reserved, Accumulator.defaultName, []⟩ := by
  rw [ofSource] at made
  split at made
  · cases made
  · exact (Except.ok.inj made).symm

/-- Under fresh naming, the accumulator is the first name that the source does not use. -/
theorem isFirstFree_accumulator (text : Text) :
    IsFirstFree text.Uses Accumulator.defaultName
      (freeName text.variableNames Accumulator.defaultName) := by
  have first := freeName_isFirstFree text.variableNames Accumulator.defaultName
  simpa only [Text.mem_variableNames_iff] using first

/-- Under fresh naming, a temporary is the first name that the source does not use and that is not
the accumulator. -/
theorem isFirstFree_temporary (text accumulator : Text) (callee : Text) (earlier : Nat) :
    IsFirstFree (fun name => name = accumulator ∨ text.Uses name)
      (temporaryBase callee earlier)
      (temporary ⟨.fresh, accumulator, accumulator :: text.variableNames⟩ callee earlier) := by
  have first := freeName_isFirstFree (accumulator :: text.variableNames)
    (temporaryBase callee earlier)
  simp only [List.mem_cons, Text.mem_variableNames_iff] at first
  exact first

/-- No generated name is a variable of the source, and no temporary is the accumulator.  Fresh names
are always found: each is its base, or the base with the least number that makes it free.  Reserved
names fail exactly on a variable that contains the word output, and the first one is reported as a
whole with its line. -/
theorem generated_names_are_new (text : Text) :
    (∀ naming names, ofSource naming text = .ok names →
      ¬text.Uses names.accumulator ∧
      ∀ callee earlier, ¬text.Uses (names.temporary callee earlier) ∧
        names.temporary callee earlier ≠ names.accumulator) ∧
    (∃ names, ofSource .fresh text = .ok names ∧
      IsFirstFree text.Uses Accumulator.defaultName names.accumulator ∧
      ∀ callee earlier, IsFirstFree (fun name => name = names.accumulator ∨ text.Uses name)
        (temporaryBase callee earlier) (names.temporary callee earlier)) ∧
    ((∃ error, ofSource .reserved text = .error error) ↔
      ∃ token before, Variable.StandsBehind token before text ∧ token.NamesOutput) ∧
    ∀ error, ofSource .reserved text = .error error →
      ∃ token before, IsFirstReserved token before text ∧
        error = .reservedVariable token.text (1 + before.breaks) := by
  refine ⟨fun naming names made => ?_, ⟨_, rfl, isFirstFree_accumulator text,
    isFirstFree_temporary text _⟩, ofSource_reserved_eq_error_iff text, fun error failed => ?_⟩
  · cases naming with
    | reserved =>
        have apart (name : Text) := @not_uses_of_ofSource_reserved text names made name
        obtain rfl := ofSource_reserved_eq_ok made
        refine ⟨apart _ (.inl (by decide)), fun callee earlier => ⟨?_, fun same => ?_⟩⟩
        · exact apart _ (.inr (word_infix_temporaryBase callee earlier))
        · -- only the temporary has a capital letter
          have capital : 'O' ∈ temporaryBase callee earlier :=
            (word_infix_temporaryBase callee earlier).subset (by decide)
          rw [show temporaryBase callee earlier = Accumulator.defaultName from same] at capital
          exact absurd capital (by decide)
    | fresh =>
        obtain rfl := Except.ok.inj made
        refine ⟨(isFirstFree_accumulator text).not_taken, fun callee earlier => ?_⟩
        exact (not_or.mp (isFirstFree_temporary text _ callee earlier).not_taken).symm
  · rw [ofSource] at failed
    split at failed
    next line token found =>
      obtain ⟨before, first, rfl⟩ := exists_isFirstReserved_of_reservedVariable? found
      exact ⟨token, before, first, (Except.error.inj failed).symm⟩
    next => cases failed

/-- Where the default name and its first number are taken, the accumulator gets the second one. -/
theorem generated_names_are_new_numbered :
    ∃ names, ofSource .fresh "{{$output := $output1}}{{$fOutput}}".toList = .ok names ∧
      names.accumulator = "$output2".toList ∧
      names.temporary "f".toList 0 = "$fOutput1".toList ∧
      ¬Text.Uses "{{$output := $output1}}{{$fOutput}}".toList "$output2".toList := by
  obtain ⟨capture, _⟩ :=
    generated_names_are_new "{{$output := $output1}}{{$fOutput}}".toList
  have named : freeName (Text.variableNames "{{$output := $output1}}{{$fOutput}}".toList)
      Accumulator.defaultName = "$output2".toList := by decide +kernel
  refine ⟨_, rfl, named, by decide +kernel, ?_⟩
  rw [← named]
  exact (capture .fresh _ rfl).1

end NameSupply
end OutputThreading
