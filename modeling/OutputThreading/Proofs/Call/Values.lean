import OutputThreading.Call.Threading
import OutputThreading.Proofs.Call.Reading

/-!
# Values in the place of calls

Threading replaces some calls of a statement by values.  A value is inert: it starts no call, it
completes none in front of it, and it ends no argument early.  So the calls that are left are those
that were not threaded (`ThreadingContext.phrases_withValues`).
-/

namespace OutputThreading
namespace ThreadingContext

variable (context : ThreadingContext)

/-! ## Which calls are threaded -/

/-- Calls of the template are threaded: it is defined and produces output. -/
def threads (callee : Text) : Bool :=
  (context.signatures callee).any Signature.isProducing

/-- A call is left alone, or its result is all output, or its result is a pair. -/
theorem threadCall?_cases (call : Call) (earlier : Nat) :
    (context.threads call.callee = false ∧ context.threadCall? call earlier = none) ∨
    (context.signatures call.callee = some ⟨.producing, .bare⟩ ∧
      context.threadCall? call earlier = some {
        setup := [Accumulator.append context.names.accumulator
          (['('] ++ call.normalized.text ++ [')'])]
        value := emptyValue }) ∨
    (context.signatures call.callee = some ⟨.producing, .valued⟩ ∧
      context.threadCall? call earlier = some {
        setup := [
          (Statement.mk (context.names.temporary call.callee earlier ++ " := ".toList ++
            call.normalized.text)).text,
          Accumulator.append context.names.accumulator
            (Accumulator.project (context.names.temporary call.callee earlier) 0)]
        value := Accumulator.project (context.names.temporary call.callee earlier) 1 }) := by
  rw [threads, threadCall?]
  match context.signatures call.callee with
  | none => exact .inl ⟨rfl, rfl⟩
  | some ⟨.pure, returns⟩ => exact .inl ⟨rfl, rfl⟩
  | some ⟨.producing, .bare⟩ => exact .inr (.inl ⟨rfl, rfl⟩)
  | some ⟨.producing, .valued⟩ => exact .inr (.inr ⟨rfl, rfl⟩)

theorem isSome_threadCall? (call : Call) (earlier : Nat) :
    (context.threadCall? call earlier).isSome = context.threads call.callee := by
  rcases context.threadCall?_cases call earlier with ⟨pure, none⟩ | ⟨bare, some⟩ | ⟨valued, some⟩
  · simp [pure, none]
  · simp [threads, bare, some, Signature.isProducing]
  · simp [threads, valued, some, Signature.isProducing]

variable {context} in
theorem isInert_value
    {call : Call}
    {earlier : Nat}
    {threaded : ThreadedCall}
    (found : context.threadCall? call earlier = some threaded) :
    Call.IsInert threaded.value := by
  rcases context.threadCall?_cases call earlier with ⟨_, none⟩ | ⟨_, some⟩ | ⟨_, some⟩
  · rw [found] at none
    cases none
  · obtain rfl := Option.some.inj (found.symm.trans some)
    exact .emptyLiteral
  · obtain rfl := Option.some.inj (found.symm.trans some)
    exact .paren _

variable {context} in
theorem skips_value
    {call : Call}
    {earlier : Nat}
    {threaded : ThreadedCall}
    (found : context.threadCall? call earlier = some threaded)
    (rest : Text) :
    Call.form.Skips threaded.value rest := by
  rcases context.threadCall?_cases call earlier with ⟨_, none⟩ | ⟨_, some⟩ | ⟨_, some⟩
  · rw [found] at none
    cases none
  · obtain rfl := Option.some.inj (found.symm.trans some)
    exact Call.skips_of_notMem (by simp [emptyValue]) rest
  · obtain rfl := Option.some.inj (found.symm.trans some)
    exact Call.skips_project (context.names.temporary_isName call.callee earlier) 1 rest

/-! ## The statement with values, piece by piece -/

/-- The pieces of a statement with values in the place of the threaded calls, where `earlier` are
the templates called so far. -/
def valuesFrom (context : ThreadingContext) : (earlier : List Text) → List (Piece Call) → Text
  | _, [] => []
  | earlier, .char c :: pieces => c :: valuesFrom context earlier pieces
  | earlier, .phrase call :: pieces =>
      ((context.threadCall? call (earlier.count call.callee)).map ThreadedCall.value).getD
        call.text ++ valuesFrom context (call.callee :: earlier) pieces

theorem valuesFrom_eq_flatMap (earlier : List Text) (pieces : List (Piece Call)) :
    context.valuesFrom earlier pieces =
      ((Call.number earlier pieces).map <| Piece.map fun (call, count) =>
        (call, context.threadCall? call count)).flatMap
          (Piece.text fun (call, threaded) =>
            (threaded.map ThreadedCall.value).getD call.text) := by
  induction pieces generalizing earlier with
  | nil => rfl
  | cons piece pieces inductionHypothesis =>
      cases piece with
      | char c => simp [valuesFrom, Call.number, Piece.map, inductionHypothesis]
      | phrase call => simp [valuesFrom, Call.number, Piece.map, inductionHypothesis]

theorem valuesFrom_map_char_append (earlier : List Text) (text : Text) (pieces : List (Piece Call)) :
    context.valuesFrom earlier (text.map .char ++ pieces) =
      text ++ context.valuesFrom earlier pieces := by
  induction text with
  | nil => rfl
  | cons c text inductionHypothesis => exact congrArg (c :: ·) inductionHypothesis

theorem interior_withValues (statement : Statement) :
    (context.withValues statement).interior =
      context.valuesFrom [] (Call.form.split statement.interior) := by
  rw [valuesFrom_eq_flatMap]
  rfl

/-- The text of a call or the value in its place. -/
theorem valuesFrom_phrase_cases
    (earlier : List Text)
    (call : Call)
    (pieces : List (Piece Call)) :
    (context.threads call.callee = false ∧
      context.valuesFrom earlier (.phrase call :: pieces) =
        call.text ++ context.valuesFrom (call.callee :: earlier) pieces) ∨
    (context.threads call.callee = true ∧
      ∃ threaded, context.threadCall? call (earlier.count call.callee) = some threaded ∧
        context.valuesFrom earlier (.phrase call :: pieces) =
          threaded.value ++ context.valuesFrom (call.callee :: earlier) pieces) := by
  have threads := context.isSome_threadCall? call (earlier.count call.callee)
  cases found : context.threadCall? call (earlier.count call.callee) with
  | none =>
      rw [found] at threads
      exact .inl ⟨threads.symm, by simp [valuesFrom, found]⟩
  | some threaded =>
      rw [found] at threads
      exact .inr ⟨threads.symm, threaded, rfl, by simp [valuesFrom, found]⟩

/-- The values change nothing, or nothing in front of the word of some call. -/
theorem valuesFrom_eq_or_exists (text : Text) (earlier : List Text) :
    context.valuesFrom earlier (Call.form.split text) = text ∨
      ∃ front behind c other, text = front ++ (Call.opener ++ behind) ∧
        context.valuesFrom earlier (Call.form.split text) = front ++ c :: other ∧
          (c = '"' ∨ c = '(') := by
  fun_induction Call.form.split text generalizing earlier with
  | case1 => exact .inl rfl
  | case2 c tail call rest found inductionHypothesis =>
      rw [Call.eq_text_append_of_read? found]
      rcases context.valuesFrom_phrase_cases earlier call (Call.form.split rest) with
        ⟨_, equal⟩ | ⟨_, threaded, taken, equal⟩
      · rcases inductionHypothesis (call.callee :: earlier) with
          same | ⟨front, behind, d, other, text_eq, values_eq, first⟩
        · exact .inl (by rw [equal, same])
        · refine .inr ⟨call.text ++ front, behind, d, other, ?_, ?_, first⟩
          · rw [text_eq, List.append_assoc]
          · rw [equal, values_eq, List.append_assoc]
      · right
        rw [equal, Call.text_append]
        have inert := isInert_value taken
        generalize threaded.value = value at inert
        cases inert with
        | emptyLiteral => exact ⟨[], _, '"', _, rfl, rfl, .inl rfl⟩
        | paren inside => exact ⟨[], _, '(', _, rfl, rfl, .inr rfl⟩
  | case3 c tail notFound inductionHypothesis =>
      rw [valuesFrom]
      rcases inductionHypothesis earlier with
        same | ⟨front, behind, d, other, text_eq, values_eq, first⟩
      · exact .inl (by rw [same])
      · refine .inr ⟨c :: front, behind, d, other, ?_, ?_, first⟩
        · rw [text_eq, List.cons_append]
        · rw [values_eq, List.cons_append]

/-! ## No call appears -/

/-- A call that starts in front of the values started there before. -/
theorem startsCall_of_startsCall_valuesFrom
    (front text : Text)
    (earlier : List Text)
    (starts : Call.startsCall (front ++ context.valuesFrom earlier (Call.form.split text)) = true) :
    Call.startsCall (front ++ text) = true := by
  fun_induction Call.form.split text generalizing front earlier with
  | case1 => exact starts
  | case2 c tail call rest found inductionHypothesis =>
      rw [Call.eq_text_append_of_read? found]
      rcases context.valuesFrom_phrase_cases earlier call (Call.form.split rest) with
        ⟨_, equal⟩ | ⟨_, threaded, taken, equal⟩
      · rw [equal, ← List.append_assoc] at starts
        rw [← List.append_assoc]
        exact inductionHypothesis _ _ starts
      · rw [equal] at starts
        exact Call.startsCall_of_isInert (Call.wellFormed_of_read? found) (isInert_value taken)
          _ rest starts
  | case3 c tail notFound inductionHypothesis =>
      rw [valuesFrom, ← List.singleton_append, ← List.append_assoc] at starts
      rw [← List.singleton_append, ← List.append_assoc]
      exact inductionHypothesis _ _ starts

/-- The values leave the start of a text as it was, or put an expression in the place of a call. -/
theorem startsAlike_valuesFrom (text : Text) (earlier : List Text) :
    Argument.StartsAlike text (context.valuesFrom earlier (Call.form.split text)) := by
  fun_induction Call.form.split text generalizing earlier with
  | case1 => exact ⟨rfl, .inr rfl⟩
  | case2 c tail call rest found inductionHypothesis =>
      have word : ∃ behind, c :: tail = 'e' :: behind := by
        rw [Call.eq_text_append_of_read? found, Call.text_append, Call.opener_eq]
        exact ⟨_, rfl⟩
      obtain ⟨behind, word⟩ := word
      obtain ⟨first, others, equal, solid⟩ : ∃ first others,
          context.valuesFrom earlier (.phrase call :: Call.form.split rest) = first :: others ∧
            Character.isSpace first = false := by
        rcases context.valuesFrom_phrase_cases earlier call (Call.form.split rest) with
          ⟨_, equal⟩ | ⟨_, threaded, taken, equal⟩
        · rw [Call.text_append, Call.opener_eq] at equal
          exact ⟨'e', _, equal, by decide⟩
        · have inert := isInert_value taken
          generalize threaded.value = value at equal inert
          cases inert with
          | emptyLiteral => exact ⟨'"', _, equal, by decide⟩
          | paren inside => exact ⟨'(', _, equal, by decide⟩
      have letter : Character.isSpace 'e' = false := by decide
      rw [word, equal]
      refine ⟨?_, .inl ?_⟩
      · rw [Text.leadingSpace_cons_of_not_space letter, Text.leadingSpace_cons_of_not_space solid]
      · rw [Text.trimStart_cons_of_not_space letter]
        rfl
  | case3 c tail notFound inductionHypothesis =>
      rw [valuesFrom]
      have alike := inductionHypothesis earlier
      by_cases space : Character.isSpace c = true
      · refine ⟨?_, ?_⟩
        · simpa [Text.leadingSpace, space] using alike.leadingSpace_eq
        · simpa [Text.trimStart, space] using alike.head?_eq
      · have solid : Character.isSpace c = false := by simpa using space
        refine ⟨?_, .inr ?_⟩
        · rw [Text.leadingSpace_cons_of_not_space solid, Text.leadingSpace_cons_of_not_space solid]
        · rw [Text.trimStart_cons_of_not_space solid, Text.trimStart_cons_of_not_space solid]
          rfl

/-- The calls that are left among the values are those that are not threaded. -/
theorem phrases_valuesFrom (text : Text) (earlier : List Text) :
    Call.form.phrases (context.valuesFrom earlier (Call.form.split text)) =
      (Call.form.phrases text).filter fun call => !context.threads call.callee := by
  fun_induction Call.form.split text generalizing earlier with
  | case1 => simp [valuesFrom]
  | case2 c tail call rest found inductionHypothesis =>
      rw [Call.form.phrases_of_read? found]
      rcases context.valuesFrom_phrase_cases earlier call (Call.form.split rest) with
        ⟨pure, equal⟩ | ⟨producing, threaded, taken, equal⟩
      · have cut := Argument.split_append_of_startsAlike (Call.split_argument_of_read? found)
          (context.startsAlike_valuesFrom rest (call.callee :: earlier))
        have again := (Call.wellFormed_of_read? found).read?_text_append cut
        rw [equal, Call.form.phrases_of_read? again, inductionHypothesis]
        simp [pure]
      · rw [equal, Call.form.phrases_append_of_skips (skips_value taken _), inductionHypothesis]
        simp [producing]
  | case3 c tail notFound inductionHypothesis =>
      have stillNotFound : Call.form.read?
          (c :: context.valuesFrom earlier (Call.form.split tail)) = none := by
        rw [← Option.not_isSome_iff_eq_none]
        intro starts
        have started := context.startsCall_of_startsCall_valuesFrom [c] tail earlier starts
        rw [Call.startsCall, List.singleton_append, show Call.read? (c :: tail) = none from notFound]
          at started
        cases started
      rw [valuesFrom, Call.form.phrases_cons_of_read?_eq_none stillNotFound, inductionHypothesis,
        Call.form.phrases_cons_of_read?_eq_none notFound]

theorem phrases_withValues (statement : Statement) :
    Call.form.phrases (context.withValues statement).interior =
      (Call.form.phrases statement.interior).filter fun call => !context.threads call.callee := by
  rw [interior_withValues, phrases_valuesFrom]

end ThreadingContext
end OutputThreading
