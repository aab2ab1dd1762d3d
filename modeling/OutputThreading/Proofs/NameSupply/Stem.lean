import OutputThreading.Proofs.NameSupply.Repetition

/-!
# Temporaries of calls to different templates

Under reserved naming a temporary is the stem of the callee, the word `Output` and the number of
calls of the same template in front.  The parts can be read off the name
(`NameSupply.temporaryBase_eq_iff`), but the callee cannot: different names may have one stem, and
the calls are counted by name.  So the temporary of a call is assigned again in front of the
statement that reads it exactly if a later call of another template has the same stem and the same
number (`NameSupply.calls_share_temporary_iff`).
-/

namespace OutputThreading

/-! ## Reading names -/

/-- Digits behind a character that is none can be told from what is in front of them. -/
theorem Text.append_digits_inj
    {c : Char}
    (noDigit : c.isDigit = false)
    {front other digits numerals : Text}
    (numeric : ∀ d ∈ digits, d.isDigit = true)
    (otherNumeric : ∀ d ∈ numerals, d.isDigit = true)
    (equal : front ++ c :: digits = other ++ c :: numerals) :
    front = other ∧ digits = numerals := by
  have absent (part : Text) (numeric : ∀ d ∈ part, d.isDigit = true) : c ∉ part.reverse := by
    intro member
    rw [numeric c (List.mem_reverse.mp member)] at noDigit
    cases noDigit
  -- read backwards, both texts are cut at the first such character
  have backwards := congrArg List.reverse equal
  simp only [List.reverse_append, List.reverse_cons, List.append_assoc, List.singleton_append]
    at backwards
  obtain ⟨digits_eq, front_eq⟩ :=
    eq_and_eq_of_append_cons_eq (absent digits numeric) (absent numerals otherNumeric) backwards
  exact ⟨List.reverse_injective front_eq, List.reverse_injective digits_eq⟩

namespace NameSupply

/-- The plain name of a temporary tells the stem and the number. -/
theorem temporaryBase_eq_iff {first second : Text} {earlier later : Nat} :
    temporaryBase first earlier = temporaryBase second later ↔
      stem first = stem second ∧ earlier = later := by
  have parts (callee : Text) (number : Nat) : temporaryBase callee number =
      (['$'] ++ stem callee ++ "Outpu".toList) ++
        't' :: (if number = 0 then [] else Text.ofNat number) := by
    have word : "Output".toList = "Outpu".toList ++ ['t'] := rfl
    rw [temporaryBase, word]
    simp only [List.append_assoc, List.singleton_append]
  have numeric (number : Nat) :
      ∀ d ∈ (if number = 0 then [] else Text.ofNat number), d.isDigit = true := by
    split
    · exact fun d member => absurd member List.not_mem_nil
    · exact fun d => Text.isDigit_of_mem_ofNat
  constructor
  · intro equal
    have stems : stem first = stem second := by
      rw [parts, parts] at equal
      have fronts := (Text.append_digits_inj (by decide) (numeric _) (numeric _) equal).1
      exact List.append_cancel_left (List.append_cancel_right fronts)
    have same (number : Nat) : temporaryBase first number = temporaryBase second number := by
      rw [temporaryBase, temporaryBase, stems]
    rw [same] at equal
    have leading : temporaryBase second earlier <+: temporaryBase second later :=
      equal ▸ List.prefix_rfl
    have following : temporaryBase second later <+: temporaryBase second earlier :=
      equal ▸ List.prefix_rfl
    have notMore := le_of_temporaryBase_prefix leading
    have notLess := le_of_temporaryBase_prefix following
    exact ⟨stems, Nat.le_antisymm notMore notLess⟩
  · rintro ⟨stems, rfl⟩
    rw [temporaryBase, temporaryBase, stems]

theorem temporary_eq_temporary_iff_of_reserved
    {source : Text}
    {names : NameSupply}
    (made : ofSource .reserved source = .ok names)
    (first second : Text)
    (earlier later : Nat) :
    names.temporary first earlier = names.temporary second later ↔
      stem first = stem second ∧ earlier = later := by
  obtain rfl := ofSource_reserved_eq_ok made
  exact temporaryBase_eq_iff

/-- The plain name of a temporary starts the temporary. -/
theorem temporaryBase_prefix_temporary (names : NameSupply) (callee : Text) (earlier : Nat) :
    temporaryBase callee earlier <+: names.temporary callee earlier := by
  rw [temporary]
  cases names.naming with
  | reserved => exact List.prefix_rfl
  | fresh =>
      obtain ⟨digits, _, equal⟩ := exists_freeName_eq names.taken (temporaryBase callee earlier)
      rw [equal]
      exact List.prefix_append _ _

/-- No temporary is the accumulator, because temporaries have a capital letter. -/
theorem IsGenerated.temporary_ne_accumulator
    {names : NameSupply}
    (generated : names.IsGenerated)
    (callee : Text)
    (earlier : Nat) :
    names.temporary callee earlier ≠ names.accumulator := by
  have lowercase : 'O' ∉ names.accumulator :=
    generated.notMem_accumulator (by decide) (by decide)
  have capital : 'O' ∈ temporaryBase callee earlier :=
    (word_infix_temporaryBase callee earlier).subset (by decide)
  intro same
  exact lowercase (same ▸ (temporaryBase_prefix_temporary names callee earlier).subset capital)

end NameSupply

/-! ## Assignments -/

/-- The statement starts with an assignment to the variable, be it declared before or not. -/
def Statement.Assigns (statement : Statement) (variableName : Text) : Prop :=
  variableName ++ " := ".toList <+: statement.interior ∨
    variableName ++ " = ".toList <+: statement.interior

/-- Names in front of a space can be told from what follows. -/
theorem Text.IsName.append_space_prefix_iff
    {name other : Text}
    (isName : name.IsName)
    (otherIsName : other.IsName)
    (part rest : Text) :
    name ++ ' ' :: part <+: other ++ ' ' :: rest ↔ name = other ∧ part <+: rest := by
  have space : Character.isNamePart ' ' = false := Character.isNamePart_eq_false_of_isSpace rfl
  constructor
  · rintro ⟨behind, equal⟩
    rw [List.append_assoc, List.cons_append] at equal
    obtain ⟨rfl, rest_eq⟩ :=
      eq_and_eq_of_append_cons_eq (isName.notMem space) (otherIsName.notMem space) equal
    exact ⟨rfl, behind, rest_eq⟩
  · rintro ⟨rfl, behind, rfl⟩
    exact ⟨behind, by rw [List.append_assoc, List.cons_append]⟩

namespace ThreadingContext

variable {context : ThreadingContext}

theorem assigns_binding_iff
    {temporary variableName : Text}
    (isName : temporary.IsName)
    (variableIsName : variableName.IsName)
    (call : Call) :
    (binding temporary call).Assigns variableName ↔ variableName = temporary := by
  have interior : (binding temporary call).interior =
      temporary ++ ' ' :: (":= ".toList ++ call.normalized.text) := by
    simp [binding]
  rw [Statement.Assigns, interior]
  have declares := variableIsName.append_space_prefix_iff isName ":= ".toList
    (":= ".toList ++ call.normalized.text)
  have changes := variableIsName.append_space_prefix_iff isName "= ".toList
    (":= ".toList ++ call.normalized.text)
  refine (or_congr declares changes).trans ?_
  simp

theorem assigns_appending_iff
    {accumulator variableName : Text}
    (isName : accumulator.IsName)
    (variableIsName : variableName.IsName)
    (expression : Text) :
    (Accumulator.appending accumulator expression).Assigns variableName ↔
      variableName = accumulator := by
  rw [Statement.Assigns, Accumulator.appending, Accumulator.appendHead_append]
  have declares := variableIsName.append_space_prefix_iff isName ":= ".toList
    ("= joinStr \"\\n\" ".toList ++ accumulator ++ [' '] ++ expression)
  have changes := variableIsName.append_space_prefix_iff isName "= ".toList
    ("= joinStr \"\\n\" ".toList ++ accumulator ++ [' '] ++ expression)
  refine (or_congr declares changes).trans ?_
  simp

/-- The setup of a call assigns the accumulator, and the temporary of the call if it returns a
value. -/
theorem exists_assigns_mem_setupOf_iff
    (isName : context.names.accumulator.IsName)
    {variableName : Text}
    (variableIsName : variableName.IsName)
    (other : variableName ≠ context.names.accumulator)
    (call : Call)
    (earlier : Nat) :
    (∃ made ∈ context.setupOf call earlier, made.Assigns variableName) ↔
      context.signatures call.callee = some ⟨.producing, .valued⟩ ∧
        variableName = context.names.temporary call.callee earlier := by
  have temporaryIsName := context.names.temporary_isName call.callee earlier
  rcases context.setupOf_cases call earlier with ⟨pure, none⟩ | ⟨bare, some⟩ | ⟨valued, some⟩
  · have notValued : context.signatures call.callee ≠ Option.some ⟨.producing, .valued⟩ := by
      intro valued
      rw [threads, valued] at pure
      cases pure
    simp [none, notValued]
  · simp [some, bare, assigns_appending_iff isName variableIsName, other]
  · simp [some, valued, assigns_appending_iff isName variableIsName, other,
      assigns_binding_iff temporaryIsName variableIsName]

/-- The setup behind some calls assigns a variable if it is the temporary of a call that returns a
value. -/
theorem exists_assigns_mem_setupFrom_iff
    (isName : context.names.accumulator.IsName)
    {variableName : Text}
    (variableIsName : variableName.IsName)
    (other : variableName ≠ context.names.accumulator)
    (earlier : List Text)
    (pieces : List (Piece Call)) :
    (∃ made ∈ context.setupFrom earlier pieces, made.Assigns variableName) ↔
      ∃ left call right, pieces.filterMap Piece.phrase? = left ++ call :: right ∧
        context.signatures call.callee = some ⟨.producing, .valued⟩ ∧
        variableName = context.names.temporary call.callee
          (((left.map Call.callee).reverse ++ earlier).count call.callee) := by
  induction pieces generalizing earlier with
  | nil => simp [setupFrom]
  | cons piece pieces inductionHypothesis =>
      cases piece with
      | char c =>
          rw [setupFrom, inductionHypothesis, List.filterMap_cons_none (Piece.phrase?_char c)]
      | phrase first =>
          have here := exists_assigns_mem_setupOf_iff isName variableIsName other first
            (earlier.count first.callee)
          have behind := inductionHypothesis (first.callee :: earlier)
          simp only [setupFrom, List.mem_append, or_and_right, exists_or, here, behind,
            List.filterMap_cons_some (Piece.phrase?_phrase first)]
          constructor
          · rintro (⟨valued, named⟩ | ⟨left, call, right, phrases_eq, valued, named⟩)
            · exact ⟨[], first, _, rfl, valued, named⟩
            · refine ⟨first :: left, call, right, by rw [phrases_eq, List.cons_append], valued, ?_⟩
              simpa using named
          · rintro ⟨left, call, right, phrases_eq, valued, named⟩
            rcases List.cons_eq_append_iff.mp phrases_eq with ⟨rfl, call_eq⟩ | ⟨rest, rfl, rest_eq⟩
            · obtain ⟨rfl, rfl⟩ := List.cons.inj call_eq
              exact .inl ⟨valued, named⟩
            · exact .inr ⟨rest, call, right, rest_eq, valued, by simpa using named⟩

/-- The values of pieces behind others count the calls of those. -/
theorem valuesFrom_append (earlier : List Text) (front behind : List (Piece Call)) :
    context.valuesFrom earlier (front ++ behind) =
      context.valuesFrom earlier front ++
        context.valuesFrom (((front.filterMap Piece.phrase?).map Call.callee).reverse ++ earlier)
          behind := by
  induction front generalizing earlier with
  | nil => rfl
  | cons piece front inductionHypothesis =>
      cases piece with
      | char c =>
          rw [List.cons_append, valuesFrom, valuesFrom, inductionHypothesis,
            List.filterMap_cons_none (Piece.phrase?_char c), List.cons_append]
      | phrase call =>
          rw [List.cons_append, valuesFrom, valuesFrom, inductionHypothesis,
            List.filterMap_cons_some (Piece.phrase?_phrase call), List.map_cons, List.reverse_cons,
            List.append_assoc, List.append_assoc, List.singleton_append]

variable (context) in
/-- The variable for the result of a call with the given calls in front of it in its statement. -/
def temporaryBehind (left : List Call) (call : Call) : Text :=
  context.names.temporary call.callee ((left.map Call.callee).count call.callee)

/-- A call that returns a value is bound in front of the statement, and its temporary is read in its
place.  In between it is assigned again if it is that of a later call that returns a value. -/
theorem exists_binding_and_value
    (generated : context.names.IsGenerated)
    {statement : Statement}
    {left right : List Call}
    {call : Call}
    (calls : Call.form.phrases statement.interior = left ++ call :: right)
    (valued : context.signatures call.callee = some ⟨.producing, .valued⟩) :
    ∃ front behind before after,
      context.setupStatements statement =
        front ++ binding (context.temporaryBehind left call) call :: behind ∧
      Call.form.split statement.interior = before ++ .phrase call :: after ∧
      before.filterMap Piece.phrase? = left ∧
      (context.withValues statement).interior = context.valuesFrom [] before ++
        (Accumulator.project (context.temporaryBehind left call) 1 ++
          context.valuesFrom (call.callee :: (left.map Call.callee).reverse) after) ∧
      ((∃ later ∈ behind, later.Assigns (context.temporaryBehind left call)) ↔
        ∃ middle other rest, right = middle ++ other :: rest ∧
          context.signatures other.callee = some ⟨.producing, .valued⟩ ∧
          context.temporaryBehind left call =
            context.temporaryBehind (left ++ call :: middle) other) := by
  obtain ⟨before, after, split_eq, rfl, rfl⟩ :=
    Form.exists_eq_append_of_filterMap_eq_append calls
  generalize left_eq : before.filterMap Piece.phrase? = left
  have isName := generated.accumulator_isName
  have variableIsName : (context.temporaryBehind left call).IsName :=
    context.names.temporary_isName call.callee _
  have fresh : context.temporaryBehind left call ≠ context.names.accumulator :=
    generated.temporary_ne_accumulator call.callee _
  have counted : ((left.map Call.callee).reverse ++ []).count call.callee =
      (left.map Call.callee).count call.callee := by
    rw [List.append_nil, List.count_reverse]
  refine ⟨context.setupFrom [] before,
    Accumulator.appending context.names.accumulator
        (Accumulator.project (context.temporaryBehind left call) 0) ::
      context.setupFrom (call.callee :: ((left.map Call.callee).reverse ++ [])) after,
    before, after, ?_, split_eq, left_eq, ?_, ?_⟩
  · rw [setupStatements, split_eq, setupFrom_append, left_eq, setupFrom, setupOf, valued, counted]
    rfl
  · rw [interior_withValues, split_eq, valuesFrom_append, left_eq, valuesFrom, threadCall?, valued,
      counted, List.append_nil]
    rfl
  · have appended := assigns_appending_iff isName variableIsName
      (Accumulator.project (context.temporaryBehind left call) 0)
    have others := exists_assigns_mem_setupFrom_iff isName variableIsName fresh
      (call.callee :: ((left.map Call.callee).reverse ++ [])) after
    rw [List.exists_mem_cons_iff, appended, or_iff_right fresh, others]
    have numbered (middle : List Call) (other : Call) :
        ((middle.map Call.callee).reverse ++
          call.callee :: ((left.map Call.callee).reverse ++ [])).count other.callee =
          ((left ++ call :: middle).map Call.callee).count other.callee := by
      simp [List.count_append, List.count_cons, Nat.add_assoc, Nat.add_comm, Nat.add_left_comm]
    simp only [numbered]
    rfl

end ThreadingContext

/-! ## Calls with one stem -/

/-- Under reserved naming the temporaries of two calls are the same exactly if the callees have the
same stem and the calls the same number among those of their own template.  A call is bound in
front of the statement and its temporary is read in its place, but between the two the temporary is
assigned again exactly if a later call of another template shares it. -/
theorem NameSupply.calls_share_temporary_iff
    {source : Text}
    {names : NameSupply}
    (made : ofSource .reserved source = .ok names)
    (signatures : Signatures) :
    let context : ThreadingContext := ⟨names, signatures⟩
    (∀ first second earlier later,
      names.temporary first earlier = names.temporary second later ↔
        stem first = stem second ∧ earlier = later) ∧
    ∀ (statement : Statement) (left right : List Call) (call : Call),
      Call.form.phrases statement.interior = left ++ call :: right →
      signatures call.callee = some ⟨.producing, .valued⟩ →
      ∃ front behind before after,
        context.setupStatements statement =
          front ++ ThreadingContext.binding (context.temporaryBehind left call) call :: behind ∧
        Call.form.split statement.interior = before ++ .phrase call :: after ∧
        before.filterMap Piece.phrase? = left ∧
        (context.withValues statement).interior = context.valuesFrom [] before ++
          (Accumulator.project (context.temporaryBehind left call) 1 ++
            context.valuesFrom (call.callee :: (left.map Call.callee).reverse) after) ∧
        ((∃ later ∈ behind, later.Assigns (context.temporaryBehind left call)) ↔
          ∃ middle other rest, right = middle ++ other :: rest ∧
            signatures other.callee = some ⟨.producing, .valued⟩ ∧
            other.callee ≠ call.callee ∧ stem other.callee = stem call.callee ∧
            ((left ++ call :: middle).map Call.callee).count other.callee =
              (left.map Call.callee).count call.callee) := by
  intro context
  have generated : names.IsGenerated := ⟨.reserved, source, made⟩
  have shared := temporary_eq_temporary_iff_of_reserved made
  refine ⟨shared, fun statement left right call calls valued => ?_⟩
  obtain ⟨front, behind, before, after, setup_eq, split_eq, left_eq, values_eq, assigned⟩ :=
    context.exists_binding_and_value generated calls valued
  refine ⟨front, behind, before, after, setup_eq, split_eq, left_eq, values_eq, ?_⟩
  rw [assigned]
  constructor
  · rintro ⟨middle, other, rest, right_eq, otherValued, same⟩
    obtain ⟨stems, counts⟩ := (shared _ _ _ _).mp same
    refine ⟨middle, other, rest, right_eq, otherValued, fun named => ?_, stems.symm, counts.symm⟩
    -- a later call of the same template counts this one
    rw [named, List.map_append, List.map_cons, List.count_append, List.count_cons_self] at counts
    omega
  · rintro ⟨middle, other, rest, right_eq, otherValued, _, stems, counts⟩
    exact ⟨middle, other, rest, right_eq, otherValued,
      (shared _ _ _ _).mpr ⟨stems.symm, counts.symm⟩⟩

/-- Three calls with two stems: every temporary still holds the result of its own call. -/
theorem NameSupply.calls_share_temporary_iff_apart :
    let signatures : Signatures := fun _ => some ⟨.producing, .valued⟩
    let interior : Text :=
      "f (execTemplate \"a-b\" 1) (execTemplate \"a-b\" 2) (execTemplate \"a.c\")".toList
    let first : Call := ⟨[' '], "a-b".toList, " 1".toList⟩
    ∃ names, ofSource .reserved (Statement.mk interior).text = .ok names ∧
      let context : ThreadingContext := ⟨names, signatures⟩
      names.temporary "a-b".toList 0 ≠ names.temporary "a.c".toList 0 ∧
      ∃ front behind, context.setupStatements ⟨interior⟩ =
          front ++ ThreadingContext.binding "$a_bOutput".toList first :: behind ∧
        ¬∃ later ∈ behind, later.Assigns "$a_bOutput".toList := by
  intro signatures interior first
  have made : ofSource .reserved (Statement.mk interior).text =
      .ok ⟨.reserved, Accumulator.defaultName, []⟩ := by
    decide +kernel
  have calls : Call.form.phrases (Statement.mk interior).interior =
      [] ++ first :: [⟨[' '], "a-b".toList, " 2".toList⟩, ⟨[' '], "a.c".toList, []⟩] := by
    decide +kernel
  obtain ⟨shared, bound⟩ := calls_share_temporary_iff made signatures
  obtain ⟨front, behind, _, _, setup_eq, _, _, _, assigned⟩ :=
    bound ⟨interior⟩ [] _ first calls rfl
  have named : ThreadingContext.temporaryBehind
      ⟨⟨.reserved, Accumulator.defaultName, []⟩, signatures⟩ [] first = "$a_bOutput".toList := by
    decide +kernel
  rw [named] at setup_eq assigned
  refine ⟨_, made, fun same => ?_, front, behind, setup_eq, fun later => ?_⟩
  · exact absurd ((shared _ _ _ _).mp same).1 (by decide +kernel)
  · obtain ⟨middle, other, rest, right_eq, _, different, stems, _⟩ := assigned.mp later
    have member : other ∈ middle ++ other :: rest :=
      List.mem_append_right middle List.mem_cons_self
    rw [← right_eq, List.mem_cons, List.mem_singleton] at member
    rcases member with rfl | rfl
    · exact different rfl
    · exact absurd stems (by decide +kernel)

/-- Two names with one stem, each called once: the statement adds the value of the second call to
itself. -/
theorem NameSupply.calls_share_temporary :
    let statement (interior : String) : Text := (Statement.mk interior.toList).text
    let newline : Text := ['\n']
    let source : Text := statement "add (execTemplate \"a-b\") (execTemplate \"a_b\")"
    ∃ names, ofSource .reserved source = .ok names ∧
      names.temporary "a-b".toList 0 = names.temporary "a_b".toList 0 ∧
      ThreadingContext.threadCalls ⟨names, fun _ => some ⟨.producing, .valued⟩⟩ .passthrough
          source =
        .ok (statement "$a_bOutput := execTemplate \"a-b\"" ++ newline ++
          statement "$output = joinStr \"\\n\" $output (index $a_bOutput 0)" ++ newline ++
          statement "$a_bOutput := execTemplate \"a_b\"" ++ newline ++
          statement "$output = joinStr \"\\n\" $output (index $a_bOutput 0)" ++ newline ++
          statement "add ((index $a_bOutput 1)) ((index $a_bOutput 1))") := by
  refine ⟨⟨.reserved, Accumulator.defaultName, []⟩, ?_, ?_, ?_⟩ <;> decide +kernel

end OutputThreading
