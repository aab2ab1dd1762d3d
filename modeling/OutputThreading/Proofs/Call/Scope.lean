import OutputThreading.Proofs.Call.Statements
import OutputThreading.Proofs.Marker

/-!
# Scopes of generated temporaries

A variable that a statement declares is known up to the end of the branch in which the statement
lies.  The setup of a statement is laid out right in front of it, so that the scope of its temporaries
reaches the statement, unless the statement itself ends the branch
(`ThreadingContext.setup_reaches_statement_iff`).
-/

namespace OutputThreading

/-! ## Scopes -/

/-- The statement ends the branch in front of it and starts another one. -/
def Statement.isSeparator (statement : Statement) : Bool :=
  "else".toList.isPrefixOf statement.interior

namespace Scope

/-- The scopes around a statement when `opened` are open in front of it, the innermost first.  Every
scope is known by the number of the statement that starts it. -/
def around (statement : Statement) (opened : List Nat) : List Nat :=
  if statement.isSeparator then opened.tail else opened

/-- The scopes that are open behind a statement. -/
def behind (number : Nat) (statement : Statement) (opened : List Nat) : List Nat :=
  if statement.isSeparator then number :: opened.tail
  else
    match statement.marker? with
    | some (.opens _) => number :: opened
    | some .closes => opened.tail
    | none => opened

/-- The scopes around each of the statements, the first of which has the given number. -/
def scopesFrom (number : Nat) (opened : List Nat) : List Statement → List (List Nat)
  | [] => []
  | statement :: statements =>
      around statement opened ::
        scopesFrom (number + 1) (behind number statement opened) statements

/-- The scopes that are open behind the statements, the first of which has the given number. -/
def openFrom (number : Nat) (opened : List Nat) : List Statement → List Nat
  | [] => opened
  | statement :: statements =>
      openFrom (number + 1) (behind number statement opened) statements

/-- The innermost scope around the first of two statements is also around the second. -/
def Reaches (statements : List Statement) (first second : Nat) : Prop :=
  ∃ outer ∈ (scopesFrom 0 [] statements)[first]?,
    ∃ inner ∈ (scopesFrom 0 [] statements)[second]?, outer <:+ inner

instance (statements : List Statement) (first second : Nat) :
    Decidable (Reaches statements first second) :=
  inferInstanceAs <| Decidable <| ∃ outer ∈ (scopesFrom 0 [] statements)[first]?,
    ∃ inner ∈ (scopesFrom 0 [] statements)[second]?, outer <:+ inner

theorem length_scopesFrom (number : Nat) (opened : List Nat) (statements : List Statement) :
    (scopesFrom number opened statements).length = statements.length := by
  induction statements generalizing number opened with
  | nil => rfl
  | cons statement statements inductionHypothesis =>
      rw [scopesFrom, List.length_cons, inductionHypothesis, List.length_cons]

theorem scopesFrom_append
    (number : Nat)
    (opened : List Nat)
    (front rest : List Statement) :
    scopesFrom number opened (front ++ rest) =
      scopesFrom number opened front ++
        scopesFrom (number + front.length) (openFrom number opened front) rest := by
  induction front generalizing number opened with
  | nil => rfl
  | cons statement front inductionHypothesis =>
      rw [List.cons_append, scopesFrom, inductionHypothesis, scopesFrom, openFrom,
        List.length_cons, List.cons_append, Nat.add_assoc, Nat.add_comm 1]

/-- A statement that is no part of the block structure lies in the open scopes and leaves them
open. -/
def IsPlain (statement : Statement) : Prop :=
  statement.isSeparator = false ∧ statement.marker? = none

theorem scopesFrom_of_isPlain
    {statements : List Statement}
    (plain : ∀ statement ∈ statements, IsPlain statement)
    (number : Nat)
    (opened : List Nat) :
    scopesFrom number opened statements = List.replicate statements.length opened ∧
      openFrom number opened statements = opened := by
  induction statements generalizing number with
  | nil => exact ⟨rfl, rfl⟩
  | cons statement statements inductionHypothesis =>
      obtain ⟨noSeparator, noMarker⟩ := plain statement List.mem_cons_self
      have same : behind number statement opened = opened := by
        simp [behind, noSeparator, noMarker]
      obtain ⟨scopes_eq, open_eq⟩ := inductionHypothesis
        (fun other member => plain other (List.mem_cons_of_mem _ member)) (number + 1)
      refine ⟨?_, by rw [openFrom, same, open_eq]⟩
      rw [scopesFrom, same, scopes_eq, List.length_cons, List.replicate_succ, around, noSeparator]
      rfl

/-- The scope of a statement that only statements without blocks separate from another reaches that
one, unless it is a separator and ends the branch. -/
theorem reaches_iff
    {plainStatements : List Statement}
    (plain : ∀ statement ∈ plainStatements, IsPlain statement)
    (front rest : List Statement)
    (statement : Statement)
    {position : Nat}
    (bound : position < plainStatements.length) :
    Reaches (front ++ (plainStatements ++ statement :: rest)) (front.length + position)
        (front.length + plainStatements.length) ↔
      (statement.isSeparator = true → openFrom 0 [] front = []) := by
  obtain ⟨scopes_eq, open_eq⟩ :=
    scopesFrom_of_isPlain plain (0 + front.length) (openFrom 0 [] front)
  have first : (scopesFrom 0 [] (front ++ (plainStatements ++ statement :: rest)))[
      front.length + position]? = some (openFrom 0 [] front) := by
    rw [scopesFrom_append, scopesFrom_append, scopes_eq, List.getElem?_append_right (by
        rw [length_scopesFrom]; omega), length_scopesFrom, Nat.add_sub_cancel_left,
      List.getElem?_append_left (by rwa [List.length_replicate]), List.getElem?_replicate,
      if_pos bound]
  have second : (scopesFrom 0 [] (front ++ (plainStatements ++ statement :: rest)))[
      front.length + plainStatements.length]? = some (around statement (openFrom 0 [] front)) := by
    rw [scopesFrom_append, scopesFrom_append, scopes_eq, open_eq, List.getElem?_append_right (by
        rw [length_scopesFrom]; omega), length_scopesFrom, Nat.add_sub_cancel_left,
      List.getElem?_append_right (by rw [List.length_replicate]), List.length_replicate,
      Nat.sub_self]
    rfl
  unfold Reaches
  rw [first, second]
  simp only [Option.mem_some_iff, exists_eq_left', around]
  cases statement.isSeparator with
  | false => simp
  | true =>
      cases openFrom 0 [] front with
      | nil => simp
      | cons scope scopes =>
          simp only [if_true, List.tail_cons, reduceCtorEq, imp_false, not_true, iff_false]
          intro suffix
          have short := suffix.length_le
          rw [List.length_cons] at short
          omega

end Scope

namespace ThreadingContext

variable {context : ThreadingContext}

/-- The statements of a threaded text are those made of its statements. -/
theorem phrases_threadKnownCalls
    (isName : context.names.accumulator.IsName)
    {text : Text}
    (wellDelimited : text.WellDelimited) :
    Statement.form.phrases (context.threadKnownCalls text) =
      (Statement.form.phrases text).flatMap context.threadedStatements := by
  obtain ⟨pieces, flat, rfl⟩ := wellDelimited
  have delimited := Statement.delimited_of_isFlatPiece flat
  obtain ⟨threaded, threads, threadedDelimited, equal⟩ :=
    exists_threadKnownCalls_join isName delimited
  have flatStatement (statement : Statement) (member : statement ∈ pieces.filterMap Piece.phrase?) :
      statement.interior.IsFlat :=
    flat _ (Form.mem_filterMap_phrase?.mp member)
  obtain ⟨phrases, flatMade⟩ := threads.filterMap_phrase?_of_isFlat isName flatStatement
  rw [equal, Statement.form_isKind.phrases_join threadedDelimited,
    Statement.form_isKind.phrases_join delimited, Statement.filterMap_inline?_of_isFlat flatMade,
    Statement.filterMap_inline?_of_isFlat flatStatement, phrases]

/-- Setup opens and closes no blocks. -/
theorem isPlain_of_mem_setupStatements
    (generated : context.names.IsGenerated)
    {statement made : Statement}
    (member : made ∈ context.setupStatements statement) :
    Scope.IsPlain made := by
  obtain ⟨rest, interior⟩ := exists_interior_eq_of_mem_setupStatements generated member
  constructor
  · rw [Statement.isSeparator, interior]
    rfl
  · exact Statement.marker?_eq_none_of_dollar interior

/-- A call that returns a value is bound to a temporary in front of the statement, which reads its
second component. -/
theorem exists_binding_mem_setupFrom
    {call : Call}
    (valued : context.signatures call.callee = some ⟨.producing, .valued⟩)
    {pieces : List (Piece Call)}
    (member : call ∈ pieces.filterMap Piece.phrase?)
    (earlier : List Text) :
    ∃ count, binding (context.names.temporary call.callee count) call ∈
        context.setupFrom earlier pieces ∧
      Accumulator.project (context.names.temporary call.callee count) 1 <:+:
        context.valuesFrom earlier pieces := by
  induction pieces generalizing earlier with
  | nil => cases member
  | cons piece pieces inductionHypothesis =>
      cases piece with
      | char c =>
          obtain ⟨count, bound, read⟩ := inductionHypothesis member earlier
          exact ⟨count, bound, List.infix_cons read⟩
      | phrase first =>
          rw [List.filterMap_cons_some (Piece.phrase?_phrase _), List.mem_cons] at member
          rcases member with rfl | member
          · refine ⟨earlier.count call.callee, ?_, ?_⟩
            · rw [setupFrom, setupOf, valued]
              exact List.mem_append_left _ List.mem_cons_self
            · rw [valuesFrom, threadCall?, valued]
              exact (List.prefix_append _ _).isInfix
          · obtain ⟨count, bound, read⟩ := inductionHypothesis member (first.callee :: earlier)
            refine ⟨count, List.mem_append_right _ bound, ?_⟩
            exact List.infix_append_of_infix_right read

/-- The temporaries of a statement are declared in a scope that reaches the statement, unless the
statement itself ends the branch in which they are declared. -/
theorem setup_reaches_statement_iff
    {context : ThreadingContext}
    (generated : context.names.IsGenerated)
    {text threaded : Text}
    (wellDelimited : text.WellDelimited)
    {unknownCalls : UnknownCalls}
    (succeeds : context.threadCalls unknownCalls text = .ok threaded)
    {front behind : List Statement}
    {statement : Statement}
    (statements : Statement.form.phrases text = front ++ statement :: behind)
    {call : Call}
    (member : call ∈ Call.form.phrases statement.interior)
    (valued : context.signatures call.callee = some ⟨.producing, .valued⟩)
    (kept : context.isSpent statement = false) :
    let before := front.flatMap context.threadedStatements
    let setup := context.setupStatements statement
    (∃ count, binding (context.names.temporary call.callee count) call ∈ setup ∧
      Accumulator.project (context.names.temporary call.callee count) 1 <:+:
        (context.withValues statement).interior) ∧
    Statement.form.phrases threaded = before ++ (setup ++ context.withValues statement ::
      behind.flatMap context.threadedStatements) ∧
    ∀ position < setup.length,
      Scope.Reaches (Statement.form.phrases threaded) (before.length + position)
          (before.length + setup.length) ↔
        ((context.withValues statement).isSeparator = true → Scope.openFrom 0 [] before = []) := by
  intro before setup
  obtain rfl := eq_threadKnownCalls_of_threadCalls succeeds
  obtain ⟨count, bound, read⟩ := exists_binding_mem_setupFrom valued member []
  have nonempty : context.setupStatements statement ≠ [] := List.ne_nil_of_mem bound
  have made : context.threadedStatements statement = setup ++ [context.withValues statement] := by
    rw [threadedStatements, if_neg nonempty, kept]
    rfl
  have phrases_eq : Statement.form.phrases (context.threadKnownCalls text) =
      before ++ (setup ++ context.withValues statement ::
        behind.flatMap context.threadedStatements) := by
    rw [phrases_threadKnownCalls generated.accumulator_isName wellDelimited, statements,
      List.flatMap_append, List.flatMap_cons, made, List.append_assoc]
    rfl
  refine ⟨⟨count, bound, by rwa [interior_withValues]⟩, phrases_eq, fun position less => ?_⟩
  rw [phrases_eq]
  exact Scope.reaches_iff (fun made => isPlain_of_mem_setupStatements generated) before _ _ less

/-- A call in an opener inside of another block: its temporary is known in the opener. -/
theorem setup_reaches_statement_iff_opener :
    let context : ThreadingContext :=
      ⟨⟨.reserved, Accumulator.defaultName, []⟩, fun name =>
        if name = "ask".toList then some ⟨.producing, .valued⟩ else none⟩
    let loop : Statement := ⟨"range $x".toList⟩
    let opener : Statement := ⟨"if execTemplate \"ask\" 1".toList⟩
    let text : Text := loop.text ++ opener.text ++ Marker.closer ++ Marker.closer
    ∃ threaded, context.threadCalls .passthrough text = .ok threaded ∧
      Statement.form.phrases threaded = [loop, ⟨"$askOutput := execTemplate \"ask\" 1".toList⟩,
        ⟨"$output = joinStr \"\\n\" $output (index $askOutput 0)".toList⟩,
        ⟨"if (index $askOutput 1)".toList⟩, .ending, .ending] ∧
      Scope.Reaches (Statement.form.phrases threaded) 1 3 := by
  intro context loop opener text
  have generated : context.names.IsGenerated := NameSupply.isGenerated_reserved
  have wellDelimited : text.WellDelimited :=
    ⟨Statement.form.split text, by decide +kernel, Statement.form.join_split text⟩
  have statements : Statement.form.phrases text = [loop] ++ opener :: [.ending, .ending] := by
    decide +kernel
  have member : ⟨[' '], "ask".toList, " 1".toList⟩ ∈ Call.form.phrases opener.interior := by
    decide +kernel
  have front : ([loop].flatMap context.threadedStatements).length = 1 := by decide +kernel
  have setup : (context.setupStatements opener).length = 2 := by decide +kernel
  obtain ⟨_, _, reaches⟩ := setup_reaches_statement_iff generated wellDelimited
    (rfl : context.threadCalls .passthrough text = .ok _) statements member rfl
    (by decide +kernel)
  have known := (reaches 0 (by rw [setup]; decide)).mpr (by decide +kernel)
  rw [front, setup] at known
  exact ⟨_, rfl, by decide +kernel, known⟩

/-- A call in a separator: its temporary is declared in the branch that the separator ends, and is
not known in the separator. -/
theorem separator_reads_unknown_temporary :
    let context : ThreadingContext :=
      ⟨⟨.reserved, Accumulator.defaultName, []⟩, fun name =>
        if name = "c".toList then some ⟨.producing, .valued⟩ else none⟩
    let text : Text := (Statement.mk "if $x".toList).text ++
      (Statement.mk "else if execTemplate \"c\"".toList).text ++ Marker.closer
    context.names.IsGenerated ∧ text.WellDelimited ∧
      ∃ threaded, context.threadCalls .passthrough text = .ok threaded ∧
        Statement.form.phrases threaded = [⟨"if $x".toList⟩,
          ⟨"$cOutput := execTemplate \"c\"".toList⟩,
          ⟨"$output = joinStr \"\\n\" $output (index $cOutput 0)".toList⟩,
          ⟨"else if (index $cOutput 1)".toList⟩, .ending] ∧
        ¬Scope.Reaches (Statement.form.phrases threaded) 1 3 := by
  intro context text
  have statements : Statement.form.phrases (context.threadKnownCalls text) = [⟨"if $x".toList⟩,
      ⟨"$cOutput := execTemplate \"c\"".toList⟩,
      ⟨"$output = joinStr \"\\n\" $output (index $cOutput 0)".toList⟩,
      ⟨"else if (index $cOutput 1)".toList⟩, .ending] := by decide +kernel
  refine ⟨NameSupply.isGenerated_reserved,
    ⟨Statement.form.split text, by decide +kernel, Statement.form.join_split text⟩,
    _, rfl, statements, ?_⟩
  rw [statements]
  decide +kernel

end ThreadingContext
end OutputThreading
