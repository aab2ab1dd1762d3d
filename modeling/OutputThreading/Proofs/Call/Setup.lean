import OutputThreading.Proofs.Call.Values
import OutputThreading.Proofs.Statement.Reading
import OutputThreading.Proofs.Text.Flat

/-!
# The statements that threading makes of a statement

A statement becomes a list of statements: those that make its threaded calls, in their order, and
the statement itself with values in their place, unless nothing is left of it
(`ThreadingContext.threadStatement_eq_intercalate`).  Generated code adds only letters, digits and a
few signs to what it takes over from the source, so braces and line breaks come from the source
alone.
-/

namespace OutputThreading

/-- The statement that appends an expression to the accumulator. -/
def Accumulator.appending (accumulator expression : Text) : Statement :=
  ⟨Accumulator.appendHead accumulator ++ expression⟩

namespace ThreadingContext

variable (context : ThreadingContext)

/-! ## Setup as statements -/

/-- The statement that binds the result of a call to a variable. -/
def binding (temporary : Text) (call : Call) : Statement :=
  ⟨temporary ++ " := ".toList ++ call.normalized.text⟩

/-- The statements that make a threaded call; there are none for other calls. -/
def setupOf (call : Call) (earlier : Nat) : List Statement :=
  match context.signatures call.callee with
  | some ⟨.producing, .bare⟩ =>
      [Accumulator.appending context.names.accumulator (['('] ++ call.normalized.text ++ [')'])]
  | some ⟨.producing, .valued⟩ =>
      [binding (context.names.temporary call.callee earlier) call,
        Accumulator.appending context.names.accumulator
          (Accumulator.project (context.names.temporary call.callee earlier) 0)]
  | _ => []

theorem setupOf_cases (call : Call) (earlier : Nat) :
    (context.threads call.callee = false ∧ context.setupOf call earlier = []) ∨
    (context.signatures call.callee = some ⟨.producing, .bare⟩ ∧
      context.setupOf call earlier =
        [Accumulator.appending context.names.accumulator
          (['('] ++ call.normalized.text ++ [')'])]) ∨
    (context.signatures call.callee = some ⟨.producing, .valued⟩ ∧
      context.setupOf call earlier =
        [binding (context.names.temporary call.callee earlier) call,
          Accumulator.appending context.names.accumulator
            (Accumulator.project (context.names.temporary call.callee earlier) 0)]) := by
  rw [threads, setupOf]
  rcases context.signatures call.callee with _ | ⟨_ | _, _ | _⟩
  · exact .inl ⟨rfl, rfl⟩
  · exact .inr (.inr ⟨rfl, rfl⟩)
  · exact .inr (.inl ⟨rfl, rfl⟩)
  · exact .inl ⟨rfl, rfl⟩
  · exact .inl ⟨rfl, rfl⟩

theorem map_text_setupOf (call : Call) (earlier : Nat) :
    (context.setupOf call earlier).map Statement.text =
      ((context.threadCall? call earlier).map ThreadedCall.setup).getD [] := by
  rw [setupOf, threadCall?]
  rcases context.signatures call.callee with _ | ⟨_ | _, _ | _⟩ <;> rfl

/-- The setup of the pieces of a statement, where `earlier` are the templates called so far. -/
def setupFrom : (earlier : List Text) → List (Piece Call) → List Statement
  | _, [] => []
  | earlier, .char _ :: pieces => setupFrom earlier pieces
  | earlier, .phrase call :: pieces =>
      context.setupOf call (earlier.count call.callee) ++
        setupFrom (call.callee :: earlier) pieces

theorem map_text_setupFrom (earlier : List Text) (pieces : List (Piece Call)) :
    (context.setupFrom earlier pieces).map Statement.text =
      (((Call.number earlier pieces).map <| Piece.map fun (call, count) =>
        (call, context.threadCall? call count)).filterMap Piece.phrase?).flatMap
          fun (_, threaded) => (threaded.map ThreadedCall.setup).getD [] := by
  induction pieces generalizing earlier with
  | nil => rfl
  | cons piece pieces inductionHypothesis =>
      cases piece with
      | char c =>
          simp [setupFrom, Call.number, Piece.map, List.filterMap_cons, inductionHypothesis]
      | phrase call =>
          simp [setupFrom, Call.number, Piece.map, inductionHypothesis, map_text_setupOf]

/-- The setup of pieces behind others counts the calls of those. -/
theorem setupFrom_append (earlier : List Text) (front behind : List (Piece Call)) :
    context.setupFrom earlier (front ++ behind) =
      context.setupFrom earlier front ++
        context.setupFrom (((front.filterMap Piece.phrase?).map Call.callee).reverse ++ earlier)
          behind := by
  induction front generalizing earlier with
  | nil => rfl
  | cons piece front inductionHypothesis =>
      cases piece with
      | char c =>
          rw [List.cons_append, setupFrom, setupFrom, inductionHypothesis,
            List.filterMap_cons_none (Piece.phrase?_char c)]
      | phrase call =>
          rw [List.cons_append, setupFrom, setupFrom, inductionHypothesis,
            List.filterMap_cons_some (Piece.phrase?_phrase call), List.map_cons, List.reverse_cons,
            List.append_assoc, List.append_assoc, List.singleton_append]

/-- Where no call stands there is no setup. -/
theorem setupFrom_map_char (earlier : List Text) (text : Text) :
    context.setupFrom earlier (text.map .char) = [] := by
  induction text with
  | nil => rfl
  | cons c text inductionHypothesis => exact inductionHypothesis

/-- The statements in front of a statement. -/
def setupStatements (statement : Statement) : List Statement :=
  context.setupFrom [] (Call.form.split statement.interior)

theorem setup_eq_map_text (statement : Statement) :
    context.setup statement = (context.setupStatements statement).map Statement.text := by
  rw [setupStatements, map_text_setupFrom]
  rfl

/-- A statement that makes a single call has the setup of that call. -/
theorem setupStatements_eq_of_split
    {statement : Statement}
    {front behind : Text}
    {call : Call}
    (split_eq : Call.form.split statement.interior =
      front.map .char ++ .phrase call :: behind.map .char) :
    context.setupStatements statement = context.setupOf call 0 := by
  rw [setupStatements, split_eq, setupFrom_append, setupFrom_map_char, setupFrom,
    setupFrom_map_char, Form.filterMap_phrase?_map_char]
  simp

/-- The statements that threading makes of a statement. -/
def threadedStatements (statement : Statement) : List Statement :=
  if context.setupStatements statement = [] then [statement]
  else context.setupStatements statement ++
    if context.isSpent statement then [] else [context.withValues statement]

theorem threadStatement_eq_intercalate (indentation : Text) (statement : Statement) :
    context.threadStatement indentation statement =
      List.intercalate ('\n' :: indentation)
        ((context.threadedStatements statement).map Statement.text) := by
  rw [threadStatement, setup_eq_map_text, threadedStatements]
  cases context.setupStatements statement with
  | nil => simp
  | cons first others =>
      rw [if_neg (List.cons_ne_nil first others), List.map_append]
      cases context.isSpent statement <;> rfl

theorem threadedStatements_ne_nil (statement : Statement) :
    context.threadedStatements statement ≠ [] := by
  rw [threadedStatements]
  split
  · exact List.cons_ne_nil _ _
  next nonempty => exact List.append_ne_nil_of_left_ne_nil nonempty _

/-- Without a threaded call there is no setup. -/
theorem setupFrom_eq_nil_iff (earlier : List Text) (pieces : List (Piece Call)) :
    context.setupFrom earlier pieces = [] ↔
      ∀ call ∈ pieces.filterMap Piece.phrase?, context.threads call.callee = false := by
  induction pieces generalizing earlier with
  | nil => simp [setupFrom]
  | cons piece pieces inductionHypothesis =>
      cases piece with
      | char c => simp [setupFrom, List.filterMap_cons, inductionHypothesis]
      | phrase call =>
          have none : context.setupOf call (earlier.count call.callee) = [] ↔
              context.threads call.callee = false := by
            rcases context.setupOf_cases call (earlier.count call.callee) with
              ⟨pure, equal⟩ | ⟨bare, equal⟩ | ⟨valued, equal⟩
            · simp [pure, equal]
            · simp [threads, bare, equal, Signature.isProducing]
            · simp [threads, valued, equal, Signature.isProducing]
          simp [setupFrom, inductionHypothesis, none]

theorem setupStatements_eq_nil_iff (statement : Statement) :
    context.setupStatements statement = [] ↔
      ∀ call ∈ Call.form.phrases statement.interior, context.threads call.callee = false :=
  context.setupFrom_eq_nil_iff [] (Call.form.split statement.interior)

/-- Without a threaded call the statement stays as it is. -/
theorem withValues_eq_self
    {statement : Statement}
    (none : context.setupStatements statement = []) :
    context.withValues statement = statement := by
  have unthreaded (pieces : List (Piece Call)) (earlier : List Text)
      (pure : ∀ call ∈ pieces.filterMap Piece.phrase?, context.threads call.callee = false) :
      context.valuesFrom earlier pieces = Call.form.join pieces := by
    induction pieces generalizing earlier with
    | nil => rfl
    | cons piece pieces inductionHypothesis =>
        cases piece with
        | char c => rw [valuesFrom, inductionHypothesis earlier pure, Form.join_cons]; rfl
        | phrase call =>
            have first := pure call List.mem_cons_self
            have others := inductionHypothesis (call.callee :: earlier) fun other member =>
              pure other (List.mem_cons_of_mem call member)
            rcases context.valuesFrom_phrase_cases earlier call pieces with
              ⟨_, equal⟩ | ⟨producing, _⟩
            · rw [equal, others, Form.join_cons]
              rfl
            · rw [first] at producing
              cases producing
  have interior := context.interior_withValues statement
  rw [unthreaded _ [] ((context.setupStatements_eq_nil_iff statement).mp none),
    Form.join_split] at interior
  exact congrArg Statement.mk interior

/-- Threading makes the calls first, then keeps what is left of the statement. -/
theorem threadedStatements_eq (statement : Statement) :
    context.threadedStatements statement = context.setupStatements statement ++
      if context.setupStatements statement ≠ [] ∧ context.isSpent statement then []
      else [context.withValues statement] := by
  rw [threadedStatements]
  by_cases none : context.setupStatements statement = []
  · simp [none, context.withValues_eq_self none]
  · simp [none]

/-! ## Generated code is flat -/

end ThreadingContext

theorem Accumulator.isFlat_appendHead {accumulator : Text} (isName : accumulator.IsName) :
    (Accumulator.appendHead accumulator).IsFlat := by
  have word : Text.IsFlat " = joinStr \"\\n\" ".toList := by decide
  have space : Text.IsFlat [' '] := by decide
  rw [Accumulator.appendHead, Text.isFlat_append_iff, Text.isFlat_append_iff,
    Text.isFlat_append_iff]
  exact ⟨⟨⟨isName.isFlat, word⟩, isName.isFlat⟩, space⟩

theorem Accumulator.appendHead_append (accumulator rest : Text) :
    Accumulator.appendHead accumulator ++ rest =
      accumulator ++ ' ' :: ("= joinStr \"\\n\" ".toList ++ accumulator ++ [' '] ++ rest) := by
  simp [Accumulator.appendHead]

theorem Accumulator.appendHead_ne_nil (accumulator : Text) :
    Accumulator.appendHead accumulator ≠ [] := by
  simp [Accumulator.appendHead]

theorem Accumulator.isFlat_project {pair : Text} (isName : pair.IsName) (index : Nat) :
    (Accumulator.project pair index).IsFlat := by
  have word : Text.IsFlat "(index ".toList := by decide
  have space : Text.IsFlat [' '] := by decide
  have paren : Text.IsFlat [')'] := by decide
  rw [Accumulator.project_eq, Text.isFlat_append_iff, Text.isFlat_append_iff,
    Text.isFlat_append_iff, Text.isFlat_append_iff]
  exact ⟨⟨⟨⟨word, isName.isFlat⟩, space⟩, Text.isFlat_ofNat index⟩, paren⟩

namespace Call

/-- Delimiters in the text of a call stand in its name or in its argument. -/
theorem infix_normalized_text_iff
    {pattern : Text}
    (delimiter : pattern.IsDelimiter)
    (call : Call)
    (front rest : Text) :
    pattern <:+: front ++ (call.normalized.text ++ rest) ↔
      pattern <:+: front ∨ pattern <:+: call.callee ∨ pattern <:+: call.argument ++ rest := by
  have word : Text.IsFlat (opener ++ [' ', '"']) := by decide
  have quote : Text.IsFlat ['"'] := by decide
  have parts : call.normalized.text ++ rest =
      (opener ++ [' ', '"']) ++ (call.callee ++ (['"'] ++ (call.argument ++ rest))) := by
    simp [text, normalized]
  rw [parts, word.infix_iff (by simp) delimiter, quote.infix_iff (by simp) delimiter]

theorem callee_infix_text (call : Call) : call.callee <:+: call.text :=
  ⟨opener ++ call.spacing ++ ['"'], '"' :: call.argument, by simp [text]⟩

theorem argument_infix_text (call : Call) : call.argument <:+: call.text :=
  ⟨opener ++ call.spacing ++ ['"'] ++ call.callee ++ ['"'], [], by simp [text]⟩

end Call

namespace ThreadingContext

variable {context : ThreadingContext}

/-- Delimiters in the setup of a call stand in the call itself. -/
theorem infix_of_infix_setupOf
    {pattern : Text}
    (delimiter : pattern.IsDelimiter)
    (isName : context.names.accumulator.IsName)
    {call : Call}
    {earlier : Nat}
    {statement : Statement}
    (member : statement ∈ context.setupOf call earlier)
    {front : Text}
    (inside : pattern <:+: front ++ statement.interior) :
    pattern <:+: front ∨ pattern <:+: call.text := by
  have head := Accumulator.isFlat_appendHead isName
  have head_ne_nil := Accumulator.appendHead_ne_nil context.names.accumulator
  rcases context.setupOf_cases call earlier with ⟨_, none⟩ | ⟨_, bare⟩ | ⟨_, valued⟩
  · rw [none] at member
    cases member
  · rw [bare, List.mem_singleton] at member
    subst member
    have paren : Text.IsFlat [')'] := by decide
    rw [Accumulator.appending, head.infix_iff head_ne_nil delimiter, List.append_assoc,
      Call.infix_normalized_text_iff delimiter, ← List.append_nil [')'],
      paren.infix_iff (by simp) delimiter, List.infix_nil] at inside
    have open_flat : ¬pattern <:+: ['('] :=
      Text.isFlat_iff_forall_not_infix.mp (by decide) pattern delimiter
    rcases inside with front | opened | callee | argument | empty
    · exact .inl front
    · exact absurd opened open_flat
    · exact .inr (callee.trans call.callee_infix_text)
    · exact .inr (argument.trans call.argument_infix_text)
    · exact absurd empty delimiter.1
  · have temporary := context.names.temporary_isName call.callee earlier
    rw [valued, List.mem_cons, List.mem_singleton] at member
    rcases member with rfl | rfl
    · have assign : Text.IsFlat (context.names.temporary call.callee earlier ++ " := ".toList) := by
        rw [Text.isFlat_append_iff]
        exact ⟨temporary.isFlat, by decide⟩
      rw [binding, assign.infix_iff (by simp) delimiter, ← List.nil_append call.normalized.text,
        ← List.append_nil call.normalized.text, Call.infix_normalized_text_iff delimiter,
        List.infix_nil, List.append_nil] at inside
      rcases inside with front | empty | callee | argument
      · exact .inl front
      · exact absurd empty delimiter.1
      · exact .inr (callee.trans call.callee_infix_text)
      · exact .inr (argument.trans call.argument_infix_text)
    · have projection := Accumulator.isFlat_project temporary 0
      rw [Accumulator.appending, head.infix_iff head_ne_nil delimiter] at inside
      rcases inside with front | projected
      · exact .inl front
      · exact absurd projected (Text.isFlat_iff_forall_not_infix.mp projection pattern delimiter)

/-- Delimiters in the setup of a statement stand in the statement itself. -/
theorem infix_of_infix_setupFrom
    {pattern : Text}
    (delimiter : pattern.IsDelimiter)
    (isName : context.names.accumulator.IsName)
    {pieces : List (Piece Call)}
    {earlier : List Text}
    {statement : Statement}
    (member : statement ∈ context.setupFrom earlier pieces)
    {front : Text}
    (inside : pattern <:+: front ++ statement.interior) :
    pattern <:+: front ∨ pattern <:+: Call.form.join pieces := by
  induction pieces generalizing earlier with
  | nil => cases member
  | cons piece pieces inductionHypothesis =>
      cases piece with
      | char c =>
          rcases inductionHypothesis member with front | behind
          · exact .inl front
          · exact .inr (List.infix_append_of_infix_right behind)
      | phrase call =>
          rcases List.mem_append.mp member with member | member
          · rcases infix_of_infix_setupOf delimiter isName member inside with front | here
            · exact .inl front
            · exact .inr (List.infix_append_of_infix_left here)
          · rcases inductionHypothesis member with front | behind
            · exact .inl front
            · exact .inr (List.infix_append_of_infix_right behind)

theorem infix_of_infix_setupStatements
    {pattern : Text}
    (delimiter : pattern.IsDelimiter)
    (isName : context.names.accumulator.IsName)
    {statement made : Statement}
    (member : made ∈ context.setupStatements statement)
    {front : Text}
    (inside : pattern <:+: front ++ made.interior) :
    pattern <:+: front ∨ pattern <:+: statement.interior := by
  have found := infix_of_infix_setupFrom delimiter isName member inside
  rwa [Form.join_split] at found
theorem isFlat_value
    {call : Call}
    {earlier : Nat}
    {threaded : ThreadedCall}
    (found : context.threadCall? call earlier = some threaded) :
    threaded.value.IsFlat := by
  rcases context.threadCall?_cases call earlier with ⟨_, none⟩ | ⟨_, some⟩ | ⟨_, some⟩
  · rw [found] at none
    cases none
  · obtain rfl := Option.some.inj (found.symm.trans some)
    exact (by decide : emptyValue.IsFlat)
  · obtain rfl := Option.some.inj (found.symm.trans some)
    exact Accumulator.isFlat_project (context.names.temporary_isName call.callee earlier) 1

/-- Delimiters that occur among the values occurred among the calls, in the same surroundings. -/
theorem infix_of_infix_valuesFrom
    {pattern : Text}
    (delimiter : pattern.IsDelimiter)
    {pieces : List (Piece Call)}
    {earlier : List Text}
    {front rest : Text}
    (inside : pattern <:+: front ++ (context.valuesFrom earlier pieces ++ rest)) :
    pattern <:+: front ++ (Call.form.join pieces ++ rest) := by
  induction pieces generalizing earlier front with
  | nil => exact inside
  | cons piece pieces inductionHypothesis =>
      rw [Form.join_cons, List.append_assoc]
      cases piece with
      | char c =>
          rw [← List.append_assoc]
          apply inductionHypothesis
          simpa [valuesFrom] using inside
      | phrase call =>
          rcases context.valuesFrom_phrase_cases earlier call pieces with
            ⟨_, equal⟩ | ⟨_, threaded, taken, equal⟩
          · rw [← List.append_assoc]
            apply inductionHypothesis
            rwa [equal, List.append_assoc, ← List.append_assoc] at inside
          · rw [equal, List.append_assoc, (isFlat_value taken).infix_iff
              (isInert_value taken).ne_nil delimiter] at inside
            rcases inside with before | behind
            · exact List.infix_append_of_infix_left before
            · rw [← List.nil_append (context.valuesFrom _ _ ++ rest)] at behind
              have found := inductionHypothesis behind
              exact List.infix_append_of_infix_right (List.infix_append_of_infix_right found)

theorem infix_of_infix_withValues
    {pattern : Text}
    (delimiter : pattern.IsDelimiter)
    {statement : Statement}
    {front rest : Text}
    (inside : pattern <:+: front ++ ((context.withValues statement).interior ++ rest)) :
    pattern <:+: front ++ (statement.interior ++ rest) := by
  rw [interior_withValues] at inside
  have found := infix_of_infix_valuesFrom delimiter inside
  rwa [Form.join_split] at found

end ThreadingContext
end OutputThreading
