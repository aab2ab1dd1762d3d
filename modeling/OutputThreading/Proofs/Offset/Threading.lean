import Mathlib.Data.List.SplitBy
import OutputThreading.Proofs.Call.Setup
import OutputThreading.Proofs.Line
import OutputThreading.Proofs.Offset.Call
import OutputThreading.Proofs.Offset.Layout
import OutputThreading.Proofs.Offset.Naming

/-!
# Threading calls at byte offsets

The calls of a statement are replaced in a copy of the statement from the last to the first, and the
statements in the text from the last to the first.  So when a range is used, only text behind it has
changed, and the range still holds what it was found for (`Offset.threadCalls_eq`).
-/

namespace OutputThreading
namespace Offset

/-! ## Replacing the calls of a statement -/

namespace LocatedCall

/-- The call with a single space in front of the quoted name. -/
def text (site : LocatedCall) : Text :=
  Call.text ⟨[' '], site.callee, site.argument⟩

/-- The statement holds more than the call, white space aside. -/
def hasContext (site : LocatedCall) : Bool :=
  !(Text.trim site.before).isEmpty || !(Text.trim site.after).isEmpty

/-- The statement appends the result of the call in parentheses to the accumulator. -/
def isAppended (site : LocatedCall) (accumulator : Text) : Bool :=
  site.before = Accumulator.appendHead accumulator ++ ['('] && site.after = [')']

end LocatedCall

/-- A statement whose calls are being replaced. -/
structure Draft where
  /-- The text of the statement. -/
  statement : Text
  /-- The statements that go in front of it. -/
  setup : List Text
  /-- Something is left of the statement. -/
  keeps : Bool

/-- The temporaries for the calls of a statement, where `earlier` are the templates called so far. -/
def temporaries (names : NameSupply) (earlier : List Text) :
    List LocatedCall → Option (List Text)
  | [] => return []
  | site :: sites => do
      let name ← temporary names site.callee (earlier.count site.callee)
      let others ← temporaries names (site.callee :: earlier) sites
      return name :: others

/-- Replace one call of a draft of the statement in the range `span`.  If the call is the only one
and nothing is left of the statement but its append, the result is that append. -/
def threadCall (context : ThreadingContext) (span : Span) (lone : Bool)
    (call : LocatedCall × Text) (draft : Draft) : ExceptT Text Option Draft :=
  let (site, name) := call
  let accumulator := context.names.accumulator
  match context.signatures site.callee with
  | some ⟨.producing, returns⟩ => do
      let start ← (minus? site.callSpan.start span.start : Option _)
      let stop ← (minus? site.callSpan.stop span.start : Option _)
      match returns with
      | .bare =>
          let appended := Accumulator.append accumulator (['('] ++ site.text ++ [')'])
          if lone && (!site.hasContext || site.isAppended accumulator) then throw appended
          else
            let statement ← (draft.statement.replaceRange? ⟨start, stop⟩
              ThreadingContext.emptyValue : Option _)
            return { draft with statement, setup := appended :: draft.setup }
      | .valued =>
          let setup := [
            (Statement.mk (name ++ " := ".toList ++ site.text)).text,
            Accumulator.append accumulator (Accumulator.project name 0)]
          let statement ← (draft.statement.replaceRange? ⟨start, stop⟩
            (Accumulator.project name 1) : Option _)
          return {
            statement
            setup := setup ++ draft.setup
            keeps := draft.keeps && !(lone && !site.hasContext) }
  | _ => return draft

/-- What takes the place of the statement in the range `span` once its calls are replaced. -/
def finishStatement (text : Text) (span : Span) : Except Text Draft → Option (Option Text)
  | .error appended => return some appended
  | .ok draft =>
      if draft.setup = [] then return none
      else do
        let indentation ← indentAt text span.start
        return some (List.intercalate ('\n' :: indentation)
          (draft.setup ++ if draft.keeps then [draft.statement] else []))

/-- Thread the calls of one statement, given in their order.  There is no replacement for a
statement without calls to thread. -/
def threadStatement (context : ThreadingContext) (text : Text) (sites : List LocatedCall) :
    Option (Option Text) := do
  let span := (← sites.head?).span
  let names ← temporaries context.names [] sites
  let statement ← text.slice? span
  let threaded ← ((sites.zip names).foldrM (threadCall context span (sites.length = 1))
    ⟨statement, [], true⟩).run
  finishStatement text span threaded

/-- Put the replacement of the statement with the given calls into a text that is changed behind the
statement only. -/
def replaceStatement (context : ThreadingContext) (text : Text) (sites : List LocatedCall)
    (out : Text) : Option Text := do
  match ← threadStatement context text sites with
  | none => return out
  | some replacement => out.replaceRange? (← sites.head?).span replacement

/-- Thread every call in the statements of a text, unless some call is an error. -/
def threadCalls (context : ThreadingContext) (unknownCalls : UnknownCalls) (text : Text) :
    Checked Text := do
  let sites ← (calls text : Option _)
  match unknownCalls, sites.find? fun site => (context.signatures site.callee).isNone with
  | .error, some site => throw (.undefinedTemplate site.callee (text.lineAt site.span.start))
  | _, _ =>
      let statements := sites.splitBy fun first second => first.span = second.span
      (statements.foldrM (replaceStatement context text) text : Option _)

/-! ## One call -/

/-- The call is the only one of its statement, and nothing is left of the statement but its append. -/
def spends (context : ThreadingContext) (lone : Bool) (call : Form.Occurrence Call) : Bool :=
  lone && (ThreadingContext.standsAlone call || context.isAppended call) &&
    context.signatures call.phrase.callee = some ⟨.producing, .bare⟩

/-- The call is the only one of its statement, and all that the statement holds is the call of a
template that returns a value. -/
def drops (context : ThreadingContext) (lone : Bool) (call : Form.Occurrence Call) : Bool :=
  lone && ThreadingContext.standsAlone call &&
    context.signatures call.phrase.callee = some ⟨.producing, .valued⟩

theorem LocatedCall.callee_ofOccurrence (span : Span) (base : Nat) (call : Form.Occurrence Call) :
    (ofOccurrence span base call).callee = call.phrase.callee := rfl

theorem hasContext_ofOccurrence (span : Span) (base : Nat) (call : Form.Occurrence Call) :
    (LocatedCall.ofOccurrence span base call).hasContext = !ThreadingContext.standsAlone call := by
  have empty (text : Text) : text.trim.isEmpty = text.isBlank := by
    rw [Bool.eq_iff_iff, List.isEmpty_iff, Text.trim_eq_nil_iff]
  simp [LocatedCall.hasContext, LocatedCall.ofOccurrence, ThreadingContext.standsAlone, empty]

/-- The range of a call is counted from the start of its statement on. -/
theorem minus?_callSpan
    {span : Span}
    {before : Text}
    (starts : span.start = before.byteSize)
    (call : Form.Occurrence Call) :
    let site := LocatedCall.ofOccurrence span (before ++ Statement.opening).byteSize call
    let inner := Span.behind (Statement.opening ++ call.before) call.phrase.text
    minus? site.callSpan.start span.start = some inner.start ∧
      minus? site.callSpan.stop span.start = some inner.stop := by
  intro site inner
  have start_eq : site.callSpan.start = before.byteSize + inner.start := by
    simp [site, inner, LocatedCall.ofOccurrence, Span.shift, Span.behind, Nat.add_assoc]
  have stop_eq : site.callSpan.stop = before.byteSize + inner.stop := by
    simp [site, inner, LocatedCall.ofOccurrence, Span.shift, Span.behind, Nat.add_assoc]
  rw [start_eq, stop_eq, starts]
  exact ⟨minus?_add _ _, minus?_add _ _⟩

/-- A call is replaced in a draft in which only text behind the call has changed. -/
theorem threadCall_eq
    (context : ThreadingContext)
    {span : Span}
    {before : Text}
    (starts : span.start = before.byteSize)
    (lone : Bool)
    (call : Form.Occurrence Call)
    (earlier : Nat)
    (behind : Text)
    (setup : List Text)
    (keeps : Bool) :
    threadCall context span lone
        (.ofOccurrence span (before ++ Statement.opening).byteSize call,
          context.names.temporary call.phrase.callee earlier)
        ⟨(Statement.opening ++ call.before) ++ (call.phrase.text ++ behind), setup, keeps⟩ =
      if spends context lone call then
        throw (Accumulator.append context.names.accumulator
          (['('] ++ call.phrase.normalized.text ++ [')']))
      else
        return {
          statement := (Statement.opening ++ call.before) ++
            (((context.threadCall? call.phrase earlier).map ThreadedCall.value).getD
              call.phrase.text ++ behind)
          setup := (context.setupOf call.phrase earlier).map Statement.text ++ setup
          keeps := keeps && !drops context lone call } := by
  obtain ⟨start, stop⟩ := minus?_callSpan starts call
  have replaced (value : Text) := Text.replaceRange?_append
    (Statement.opening ++ call.before) call.phrase.text behind value
  have context_eq := hasContext_ofOccurrence span (before ++ Statement.opening).byteSize call
  have appended_eq : LocatedCall.isAppended (.ofOccurrence span
      (before ++ Statement.opening).byteSize call) context.names.accumulator =
      context.isAppended call := rfl
  have text_eq : LocatedCall.text (.ofOccurrence span (before ++ Statement.opening).byteSize call) =
      call.phrase.normalized.text := rfl
  have callee_eq := LocatedCall.callee_ofOccurrence span (before ++ Statement.opening).byteSize call
  generalize LocatedCall.ofOccurrence span (before ++ Statement.opening).byteSize call = site at *
  rw [ThreadingContext.map_text_setupOf, ThreadingContext.threadCall?, spends, drops]
  simp only [threadCall, callee_eq, context_eq, appended_eq, text_eq, Bool.not_not, start, stop]
  rcases context.signatures call.phrase.callee with _ | ⟨_ | _, _ | _⟩
  · simp
  · simp only [Checked.liftM_some, pure_bind, replaced]
    simp
  · simp only [Checked.liftM_some, pure_bind, replaced]
    by_cases spent : (lone && (ThreadingContext.standsAlone call || context.isAppended call)) = true
    · simp [spent]
    · simp [spent]
  · simp
  · simp

/-! ## All calls of a statement -/

section Statements

variable (context : ThreadingContext)

/-- The temporary of every call is found. -/
def FindsTemporaries (names : NameSupply) : Prop :=
  ∀ callee earlier, temporary names callee earlier = some (names.temporary callee earlier)

/-- The calls of the pieces are replaced from the last to the first, unless the only call is all that
there is to do.  The part of the interior already passed is `seen`, its nearest character first. -/
theorem foldrM_threadCall
    (finds : FindsTemporaries context.names)
    {span : Span}
    {before : Text}
    (starts : span.start = before.byteSize)
    (seen : Text)
    (earlier : List Text)
    (pieces : List (Piece Call)) :
    ∃ names, temporaries context.names earlier ((Call.form.occurrencesFrom seen pieces).map
        (.ofOccurrence span (before ++ Statement.opening).byteSize)) = some names ∧
      ∀ lone, (∀ call ∈ Call.form.occurrencesFrom seen pieces,
          spends context lone call = false) →
        (((Call.form.occurrencesFrom seen pieces).map
            (.ofOccurrence span (before ++ Statement.opening).byteSize)).zip names).foldrM
          (threadCall context span lone)
          ⟨(Statement.opening ++ seen.reverse) ++ (Call.form.join pieces ++ Statement.closing), [],
            true⟩ =
        pure {
          statement := (Statement.opening ++ seen.reverse) ++
            (context.valuesFrom earlier pieces ++ Statement.closing)
          setup := (context.setupFrom earlier pieces).map Statement.text
          keeps := (Call.form.occurrencesFrom seen pieces).all fun call =>
            !drops context lone call } := by
  induction pieces generalizing seen earlier with
  | nil => exact ⟨[], rfl, fun lone _ => rfl⟩
  | cons piece pieces inductionHypothesis =>
      cases piece with
      | char c =>
          obtain ⟨names, found, folds⟩ := inductionHypothesis (c :: seen) earlier
          refine ⟨names, found, fun lone quiet => ?_⟩
          have folded := folds lone quiet
          simpa [Form.occurrencesFrom, ThreadingContext.valuesFrom, ThreadingContext.setupFrom]
            using folded
      | phrase call =>
          obtain ⟨names, found, folds⟩ := inductionHypothesis
            ((Call.form.write call).reverse ++ seen) (call.callee :: earlier)
          refine ⟨context.names.temporary call.callee (earlier.count call.callee) :: names, ?_, ?_⟩
          · rw [Form.occurrencesFrom, List.map_cons, temporaries, LocatedCall.callee_ofOccurrence,
              found, finds call.callee]
            rfl
          · intro lone quiet
            rw [Form.occurrencesFrom, List.forall_mem_cons] at quiet
            have folded := folds lone quiet.2
            have passed : Statement.opening ++ seen.reverse ++
                (Call.form.join (.phrase call :: pieces) ++ Statement.closing) =
                Statement.opening ++ ((Call.form.write call).reverse ++ seen).reverse ++
                  (Call.form.join pieces ++ Statement.closing) := by simp
            have draft : Statement.opening ++ ((Call.form.write call).reverse ++ seen).reverse ++
                (context.valuesFrom (call.callee :: earlier) pieces ++ Statement.closing) =
                (Statement.opening ++ seen.reverse) ++ (call.text ++
                  (context.valuesFrom (call.callee :: earlier) pieces ++ Statement.closing)) := by
              simp [Call.form]
            rw [Form.occurrencesFrom, List.map_cons, List.zip_cons_cons, List.foldrM_cons, passed,
              folded, pure_bind, draft]
            have step := threadCall_eq context starts lone
              ⟨seen.reverse, call, Call.form.join pieces⟩ (earlier.count call.callee)
              (context.valuesFrom (call.callee :: earlier) pieces ++ Statement.closing)
              ((context.setupFrom (call.callee :: earlier) pieces).map Statement.text)
            refine (step _).trans ?_
            rw [if_neg (by simpa using quiet.1)]
            simp [ThreadingContext.valuesFrom, ThreadingContext.setupFrom, Bool.and_comm]

/-! ## One statement -/

/-- The calls of a statement with their ranges. -/
def sitesOf (statement : Form.Occurrence Statement) : List LocatedCall :=
  (Call.form.occurrences statement.phrase.interior).map fun call => .ofSite ⟨statement, call⟩

theorem span_of_mem_sitesOf
    {statement : Form.Occurrence Statement}
    {site : LocatedCall}
    (member : site ∈ sitesOf statement) :
    site.span = Span.behind statement.before statement.phrase.text := by
  obtain ⟨call, _, rfl⟩ := List.mem_map.mp member
  rfl

/-- A statement without calls has no setup. -/
theorem setup_eq_nil_of_sitesOf_eq_nil
    {statement : Form.Occurrence Statement}
    (empty : sitesOf statement = []) :
    context.setup statement.phrase = [] := by
  have none := List.map_eq_nil_iff.mp empty
  rw [← List.map_eq_nil_iff, Form.map_phrase_occurrences, Form.phrases] at none
  rw [ThreadingContext.setup_eq_map_text, ThreadingContext.setupStatements,
    Call.form.eq_map_char_of_filterMap_eq_nil none, ThreadingContext.setupFrom_map_char,
    List.map_nil]

/-- A statement that makes a single call has the setup of that call. -/
theorem setup_eq_of_occurrences_eq_singleton
    {statement : Statement}
    {call : Form.Occurrence Call}
    (only : Call.form.occurrences statement.interior = [call]) :
    context.setup statement = (context.setupOf call.phrase 0).map Statement.text := by
  obtain ⟨front, behind, pieces_eq, _⟩ :=
    Call.form.exists_eq_of_occurrencesFrom_eq_singleton only
  rw [ThreadingContext.setup_eq_map_text, context.setupStatements_eq_of_split pieces_eq]

/-- Nothing is left of a statement that makes a single call if the call spends or drops it. -/
theorem isSpent_eq_of_occurrences_eq_singleton
    {statement : Statement}
    {call : Form.Occurrence Call}
    (only : Call.form.occurrences statement.interior = [call])
    (threads : context.setup statement ≠ []) :
    context.isSpent statement = (spends context true call || drops context true call) := by
  rw [setup_eq_of_occurrences_eq_singleton context only, ne_eq, List.map_eq_nil_iff] at threads
  rw [ThreadingContext.isSpent, only, spends, drops]
  rcases context.setupOf_cases call.phrase 0 with ⟨_, none⟩ | ⟨bare, _⟩ | ⟨valued, _⟩
  · exact absurd none threads
  · simp [bare]
  · simp [valued]

/-- What takes the place of a statement, unless it stays as it is. -/
def replacement? (statement : Form.Occurrence Statement) : Option Text :=
  if context.setup statement.phrase = [] then none
  else some (context.threadStatement statement.before.lastLine.indentation statement.phrase)

/-- The calls of a statement are replaced in a copy of the statement. -/
theorem threadStatement_sitesOf
    {statement : Form.Occurrence Statement}
    (nonempty : sitesOf statement ≠ [])
    {names : List Text}
    (found : temporaries context.names [] (sitesOf statement) = some names) :
    let text := statement.before ++ (statement.phrase.text ++ statement.after)
    let span := Span.behind statement.before statement.phrase.text
    threadStatement context text (sitesOf statement) =
      (((sitesOf statement).zip names).foldrM
          (threadCall context span ((sitesOf statement).length = 1))
          ⟨statement.phrase.text, [], true⟩).run >>= finishStatement text span := by
  intro text span
  obtain ⟨site, sites, sites_eq⟩ := List.exists_cons_of_ne_nil nonempty
  have span_eq : site.span = span := span_of_mem_sitesOf (sites_eq ▸ List.mem_cons_self)
  have slice : text.slice? span = some statement.phrase.text := Text.slice?_append _ _ _
  rw [sites_eq] at found ⊢
  rw [threadStatement]
  simp only [List.head?_cons, Option.bind_eq_bind, Option.bind_some, found, span_eq, slice]

/-- A statement whose only call spends it becomes the append of that call. -/
theorem threadStatement_of_spends
    (finds : FindsTemporaries context.names)
    {statement : Form.Occurrence Statement}
    {call : Form.Occurrence Call}
    (only : Call.form.occurrences statement.phrase.interior = [call])
    (spent : spends context true call = true) :
    threadStatement context (statement.before ++ (statement.phrase.text ++ statement.after))
        (sitesOf statement) =
      some (replacement? context statement) := by
  have sites_eq : sitesOf statement = [.ofSite ⟨statement, call⟩] := by
    rw [sitesOf, only]
    rfl
  have names : temporaries context.names [] (sitesOf statement) =
      some [context.names.temporary call.phrase.callee 0] := by
    rw [sites_eq, temporaries, LocatedCall.ofSite, LocatedCall.callee_ofOccurrence,
      finds call.phrase.callee]
    rfl
  have interior := Call.form.before_append_write_append_after
    (only ▸ List.mem_singleton_self call : call ∈ Call.form.occurrences statement.phrase.interior)
  have parts : statement.phrase.text =
      (Statement.opening ++ call.before) ++ (call.phrase.text ++ (call.after ++ Statement.closing)) := by
    rw [Statement.text, ← interior]
    simp [Call.form]
  have starts : (Span.behind statement.before statement.phrase.text).start =
      statement.before.byteSize := rfl
  have step := threadCall_eq context starts true call 0 (call.after ++ Statement.closing) [] true
  rw [if_pos spent, ← parts] at step
  have bare : context.signatures call.phrase.callee = some ⟨.producing, .bare⟩ := by
    simp only [spends, Bool.and_eq_true, decide_eq_true_eq] at spent
    exact spent.2
  have setup_eq : context.setup statement.phrase = [Accumulator.append context.names.accumulator
      (['('] ++ call.phrase.normalized.text ++ [')'])] := by
    rw [setup_eq_of_occurrences_eq_singleton context only, ThreadingContext.setupOf, bare]
    rfl
  have isSpent : context.isSpent statement.phrase = true := by
    rw [isSpent_eq_of_occurrences_eq_singleton context only (by simp [setup_eq]), spent]
    rfl
  rw [threadStatement_sitesOf context (by simp [sites_eq]) names, sites_eq, List.zip_cons_cons,
    List.foldrM_cons, List.zip_nil_left, List.foldrM_nil, pure_bind]
  refine (congrArg (· >>= _) (congrArg ExceptT.run step)).trans ?_
  rw [replacement?, if_neg (by simp [setup_eq]), ThreadingContext.threadStatement, setup_eq,
    isSpent]
  change some (some (Accumulator.append _ _)) = _
  simp

/-- If no call spends the statement, it is dropped exactly if nothing is left of it. -/
theorem all_not_drops
    {statement : Form.Occurrence Statement}
    (quiet : ∀ call ∈ Call.form.occurrences statement.phrase.interior,
      spends context ((sitesOf statement).length = 1) call = false)
    (threads : context.setup statement.phrase ≠ []) :
    ((Call.form.occurrences statement.phrase.interior).all fun call =>
      !drops context ((sitesOf statement).length = 1) call) =
        !context.isSpent statement.phrase := by
  rw [sitesOf, List.length_map] at quiet ⊢
  by_cases lone : (Call.form.occurrences statement.phrase.interior).length = 1
  · obtain ⟨call, only⟩ := List.length_eq_one_iff.mp lone
    have quietCall := quiet call (by simp [only])
    rw [isSpent_eq_of_occurrences_eq_singleton context only threads]
    simp only [only, List.length_singleton, decide_true] at quietCall
    simp [only, quietCall]
  · have stays : context.isSpent statement.phrase = false := by
      unfold ThreadingContext.isSpent
      split
      next only => exact absurd (by rw [only]; rfl) lone
      next => rfl
    simp [lone, drops, stays]

/-- If no call spends the statement, all its calls are replaced by their values. -/
theorem foldrM_sitesOf
    (finds : FindsTemporaries context.names)
    {statement : Form.Occurrence Statement}
    (quiet : ∀ call ∈ Call.form.occurrences statement.phrase.interior,
      spends context ((sitesOf statement).length = 1) call = false) :
    ∃ names, temporaries context.names [] (sitesOf statement) = some names ∧
      ((sitesOf statement).zip names).foldrM
          (threadCall context (Span.behind statement.before statement.phrase.text)
            ((sitesOf statement).length = 1)) ⟨statement.phrase.text, [], true⟩ =
        pure {
          statement := (context.withValues statement.phrase).text
          setup := context.setup statement.phrase
          keeps := (Call.form.occurrences statement.phrase.interior).all fun call =>
            !drops context ((sitesOf statement).length = 1) call } := by
  have starts : (Span.behind statement.before statement.phrase.text).start =
      statement.before.byteSize := rfl
  obtain ⟨names, found, folds⟩ := foldrM_threadCall context finds starts [] []
    (Call.form.split statement.phrase.interior)
  have folded := folds ((sitesOf statement).length = 1) quiet
  have whole : (Statement.opening ++ [].reverse) ++
      (Call.form.join (Call.form.split statement.phrase.interior) ++ Statement.closing) =
      statement.phrase.text := by
    simp [Statement.text]
  have values : (Statement.opening ++ [].reverse) ++
      (context.valuesFrom [] (Call.form.split statement.phrase.interior) ++ Statement.closing) =
      (context.withValues statement.phrase).text := by
    rw [← ThreadingContext.interior_withValues]
    simp [Statement.text]
  have setup : (context.setupFrom [] (Call.form.split statement.phrase.interior)).map
      Statement.text = context.setup statement.phrase := by
    rw [ThreadingContext.setup_eq_map_text, ThreadingContext.setupStatements]
  rw [whole, values, setup] at folded
  exact ⟨names, found, folded⟩

/-- Setup and what is left of the statement go on lines with its indentation. -/
theorem finishStatement_ok
    {statement : Form.Occurrence Statement}
    {keeps : Bool}
    (kept : context.setup statement.phrase ≠ [] → keeps = !context.isSpent statement.phrase) :
    finishStatement (statement.before ++ (statement.phrase.text ++ statement.after))
        (Span.behind statement.before statement.phrase.text)
        (.ok ⟨(context.withValues statement.phrase).text, context.setup statement.phrase, keeps⟩) =
      some (replacement? context statement) := by
  have indentation : indentAt (statement.before ++ (statement.phrase.text ++ statement.after))
      statement.before.byteSize = some statement.before.lastLine.indentation :=
    indentAt_eq (by decide) _ _
  rw [finishStatement, replacement?]
  cases setup_eq : context.setup statement.phrase with
  | nil => rfl
  | cons first others =>
      rw [ThreadingContext.threadStatement, setup_eq, kept (by simp [setup_eq])]
      change (indentAt _ statement.before.byteSize >>= _) = _
      rw [indentation]
      cases context.isSpent statement.phrase <;> rfl

/-- A statement with calls is replaced by what threading it gives, unless it stays as it is. -/
theorem threadStatement_eq
    (finds : FindsTemporaries context.names)
    {statement : Form.Occurrence Statement}
    (nonempty : sitesOf statement ≠ []) :
    threadStatement context (statement.before ++ (statement.phrase.text ++ statement.after))
        (sitesOf statement) =
      some (replacement? context statement) := by
  by_cases quiet : ∀ call ∈ Call.form.occurrences statement.phrase.interior,
      spends context ((sitesOf statement).length = 1) call = false
  · obtain ⟨names, found, folded⟩ := foldrM_sitesOf context finds quiet
    rw [threadStatement_sitesOf context nonempty found, folded]
    exact finishStatement_ok context (all_not_drops context quiet)
  · simp only [not_forall, Bool.not_eq_false] at quiet
    obtain ⟨call, member, spent⟩ := quiet
    have lone : (sitesOf statement).length = 1 := by
      simp only [spends, Bool.and_eq_true, decide_eq_true_eq] at spent
      exact spent.1.1
    rw [decide_eq_true lone] at spent
    rw [sitesOf, List.length_map] at lone
    obtain ⟨only, only_eq⟩ := List.length_eq_one_iff.mp lone
    rw [only_eq, List.mem_singleton] at member
    exact threadStatement_of_spends context finds only_eq (member ▸ spent)

/-! ## All statements of a text -/

/-- A statement is replaced in a text in which only text behind the statement has changed. -/
theorem replaceStatement_eq
    (finds : FindsTemporaries context.names)
    (statement : Form.Occurrence Statement)
    (nonempty : sitesOf statement ≠ [])
    (behind : Text) :
    replaceStatement context (statement.before ++ (statement.phrase.text ++ statement.after))
        (sitesOf statement) (statement.before ++ (statement.phrase.text ++ behind)) =
      some (statement.before ++ (context.threadStatement statement.before.lastLine.indentation
        statement.phrase ++ behind)) := by
  rw [replaceStatement, threadStatement_eq context finds nonempty, replacement?]
  by_cases kept : context.setup statement.phrase = []
  · rw [if_pos kept, ThreadingContext.threadStatement, kept]
    rfl
  · obtain ⟨site, sites, sites_eq⟩ := List.exists_cons_of_ne_nil nonempty
    have span : site.span = Span.behind statement.before statement.phrase.text :=
      span_of_mem_sitesOf (sites_eq ▸ List.mem_cons_self)
    rw [if_neg kept, sites_eq]
    simp only [Option.bind_eq_bind, Option.bind_some, List.head?_cons, span,
      Text.replaceRange?_append]

/-- The statements of the pieces are replaced from the last to the first.  The part of the text
already passed is `seen`, its nearest character first. -/
theorem foldrM_replaceStatement
    (finds : FindsTemporaries context.names)
    (seen : Text)
    (pieces : List (Piece Statement)) :
    (((Statement.form.occurrencesFrom seen pieces).map sitesOf).filter fun sites =>
        !sites.isEmpty).foldrM
      (replaceStatement context (seen.reverse ++ Statement.form.join pieces))
      (seen.reverse ++ Statement.form.join pieces) =
    some (seen.reverse ++ Statement.form.replaceInLineFrom
      (fun line => context.threadStatement line.indentation) (seen.takeWhile (· ≠ '\n')) pieces) := by
  induction pieces generalizing seen with
  | nil => rfl
  | cons piece pieces inductionHypothesis =>
      cases piece with
      | char c =>
          have line : (if c = '\n' then [] else c :: seen.takeWhile (· ≠ '\n')) =
              (c :: seen).takeWhile (· ≠ '\n') := by
            by_cases isBreak : c = '\n' <;> simp [isBreak]
          have passed := inductionHypothesis (c :: seen)
          rw [Form.occurrencesFrom, Form.replaceInLineFrom, line]
          simpa using passed
      | phrase statement =>
          have line : ((Statement.form.write statement).reverse ++
                seen.takeWhile (· ≠ '\n')).takeWhile (· ≠ '\n') =
              ((Statement.form.write statement).reverse ++ seen).takeWhile (· ≠ '\n') := by
            rw [List.takeWhile_append, List.takeWhile_append, List.takeWhile_idem]
          have passed := inductionHypothesis ((Statement.form.write statement).reverse ++ seen)
          have whole : ((Statement.form.write statement).reverse ++ seen).reverse ++
              Statement.form.join pieces =
              seen.reverse ++ Statement.form.join (.phrase statement :: pieces) := by simp
          rw [whole] at passed
          rw [Form.occurrencesFrom, Form.replaceInLineFrom, line, List.map_cons]
          by_cases empty : sitesOf ⟨seen.reverse, statement, Statement.form.join pieces⟩ = []
          · have kept := setup_eq_nil_of_sitesOf_eq_nil context empty
            rw [List.filter_cons_of_neg (by simp [empty]), passed, ThreadingContext.threadStatement,
              kept]
            simp [Statement.form]
          · have step := replaceStatement_eq context finds
              ⟨seen.reverse, statement, Statement.form.join pieces⟩ empty
            rw [List.filter_cons_of_pos (by simpa using empty), List.foldrM_cons, passed]
            simpa [Statement.form, Text.lastLine] using step _

/-- Lists whose members carry the name of their list fall apart into those lists again, as long as
the names differ. -/
theorem splitBy_flatMap
    {α β κ : Type}
    [DecidableEq κ]
    {items : List α}
    {members : α → List β}
    {name : α → κ}
    {key : β → κ}
    (keyed : ∀ item member, member ∈ members item → key member = name item)
    (distinct : items.Pairwise fun first second => name first ≠ name second) :
    (items.flatMap members).splitBy (fun first second => key first = key second) =
      (items.map members).filter fun list => !list.isEmpty := by
  induction items with
  | nil => rfl
  | cons item items inductionHypothesis =>
      obtain ⟨others, distinctOthers⟩ := List.pairwise_cons.mp distinct
      have apart : ∀ first ∈ (members item).getLast?, ∀ second ∈ (items.flatMap members).head?,
          decide (key first = key second) = false := by
        intro first isFirst second isSecond
        obtain ⟨other, isOther, isMember⟩ :=
          List.mem_flatMap.mp (List.mem_of_mem_head? isSecond)
        rw [keyed item first (List.mem_of_mem_getLast? isFirst), keyed other second isMember]
        simpa using others other isOther
      rw [List.flatMap_cons, List.splitBy_append apart, inductionHypothesis distinctOthers,
        List.map_cons]
      cases members_eq : members item with
      | nil => simp
      | cons first rest =>
          have chain : (first :: rest).IsChain fun left right => decide (key left = key right) := by
            refine List.Pairwise.isChain (List.pairwise_of_forall_mem_list ?_)
            intro left isLeft right isRight
            rw [← members_eq] at isLeft isRight
            simp [keyed item left isLeft, keyed item right isRight]
          rw [List.splitBy_of_isChain (List.cons_ne_nil first rest) chain]
          simp

/-- Two statements of a text start at different offsets. -/
theorem pairwise_span_ne (text : Text) :
    (Statement.form.occurrences text).Pairwise fun first second =>
      Span.behind first.before first.phrase.text ≠ Span.behind second.before second.phrase.text := by
  refine (Statement.form.pairwise_span_occurrences text).imp fun {first second} ordered same => ?_
  have empty := Statement.form.start_lt_stop second.before second.phrase
  exact absurd ordered (Nat.not_le.mpr ((congrArg Span.stop same).symm ▸ empty))

/-- The first call of a template that is not defined is the error of the text. -/
theorem map_find?_sites (text : Text) :
    (((Statement.form.occurrences text).flatMap sitesOf).find? fun site =>
        (context.signatures site.callee).isNone).map
      (fun site => CompileError.undefinedTemplate site.callee (text.lineAt site.span.start)) =
    context.undefinedCall? text := by
  have lined := Statement.form.linedFrom_add_breaks 1 [] (Statement.form.split text)
  rw [Text.breaks_nil, Nat.add_zero, ← Form.lined, ← Form.occurrences] at lined
  have perStatement : ∀ statement ∈ Statement.form.occurrences text,
      ((sitesOf statement).find? fun site => (context.signatures site.callee).isNone).map
        (fun site => CompileError.undefinedTemplate site.callee (text.lineAt site.span.start)) =
      (context.undefinedCallee? statement.phrase).map fun callee =>
        .undefinedTemplate callee (1 + statement.before.breaks) := by
    intro statement member
    have line : text.lineAt statement.before.byteSize = 1 + statement.before.breaks := by
      rw [← Statement.form.before_append_write_append_after member, List.append_assoc,
        Text.lineAt_byteSize_append]
    rw [ThreadingContext.undefinedCallee?, Statement.callees, ← Form.map_phrase_occurrences,
      sitesOf, List.map_map, List.find?_map, List.find?_map, Option.map_map, Option.map_map, ← line]
    rfl
  have mapped := congrArg (List.findSome? id) (List.map_congr_left perStatement)
  rw [List.findSome?_map, List.findSome?_map] at mapped
  rw [List.find?_flatMap, List.map_findSome?, ThreadingContext.undefinedCall?, lined,
    List.findSome?_map]
  exact mapped

/-- The calls of a text are grouped by their statements. -/
theorem splitBy_sites (text : Text) :
    ((Statement.form.occurrences text).flatMap sitesOf).splitBy
        (fun first second => first.span = second.span) =
      ((Statement.form.occurrences text).map sitesOf).filter fun sites => !sites.isEmpty :=
  splitBy_flatMap (fun _ _ => span_of_mem_sitesOf) (pairwise_span_ne text)

/-- Threading the calls of a text at offsets is threading its calls. -/
theorem threadCalls_eq
    (finds : FindsTemporaries context.names)
    (unknownCalls : UnknownCalls)
    (text : Text) :
    threadCalls context unknownCalls text =
      .ofExcept (context.threadCalls unknownCalls text) := by
  have sites : text.callSites.map LocatedCall.ofSite =
      (Statement.form.occurrences text).flatMap sitesOf := by
    rw [Text.callSites, List.map_flatMap]
    simp only [List.map_map]
    rfl
  have folded := foldrM_replaceStatement context finds [] (Statement.form.split text)
  rw [← Form.occurrences, Form.join_split] at folded
  have replaced : (liftM (List.foldrM (replaceStatement context text) text
      (((Statement.form.occurrences text).map sitesOf).filter fun sites => !sites.isEmpty)) :
        Checked Text) = .ofExcept (.ok (context.threadKnownCalls text)) :=
    congrArg liftM folded
  rw [threadCalls, calls_eq, sites, Checked.liftM_some, pure_bind, splitBy_sites,
    ThreadingContext.threadCalls.eq_def, ← map_find?_sites]
  cases List.find? _ ((Statement.form.occurrences text).flatMap sitesOf) with
  | none => cases unknownCalls <;> exact replaced
  | some site =>
      cases unknownCalls with
      | passthrough => exact replaced
      | error => rfl

end Statements

end Offset
end OutputThreading
