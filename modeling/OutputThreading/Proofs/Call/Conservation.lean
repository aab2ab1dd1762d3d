import OutputThreading.Proofs.Call.Setup
import OutputThreading.Proofs.Statement.Layout

/-!
# Calls are conserved

Threading moves calls to statements of their own and leaves the others where they are.  The callees
of the threaded text are the callees of the text in another order, whatever the text
(`ThreadingContext.threadCalls_callees_perm`): a statement that is made of a call holds that call and
no other, and text outside of the statements still holds no statement.
-/

namespace OutputThreading
namespace ThreadingContext

variable {context : ThreadingContext}

/-! ## The statements made of a statement can be read -/

theorem isReadable_of_mem_setupStatements
    (isName : context.names.accumulator.IsName)
    {statement made : Statement}
    (readable : statement.IsReadable)
    (member : made ∈ context.setupStatements statement) :
    made.IsReadable := by
  have absent {pattern : Text} (delimiter : pattern.IsDelimiter) (inside : pattern <:+: made.interior) :
      pattern <:+: statement.interior := by
    have found : pattern <:+: [] ∨ pattern <:+: statement.interior :=
      infix_of_infix_setupStatements delimiter isName member (by rwa [List.nil_append])
    rwa [List.infix_nil, or_iff_right delimiter.1] at found
  constructor
  · intro closes
    exact readable.holdsNoClosing (absent (by decide) closes)
  · rw [← List.singleton_infix_iff]
    intro newline
    exact readable.newline_notMem ((List.singleton_infix_iff _ _).mp (absent (by decide) newline))

theorem closesOnce_withValues
    {statement : Statement}
    (closes : statement.ClosesOnce) :
    (context.withValues statement).ClosesOnce := by
  intro inside
  have among : Statement.closing <:+: [] ++ ((context.withValues statement).interior ++ ['}']) :=
    inside
  exact closes (infix_of_infix_withValues (by decide) among)

theorem newline_notMem_withValues
    {statement : Statement}
    (inline : '\n' ∉ statement.interior) :
    '\n' ∉ (context.withValues statement).interior := by
  rw [← List.singleton_infix_iff] at inline ⊢
  intro inside
  have among : ['\n'] <:+: [] ++ ((context.withValues statement).interior ++ []) := by
    simpa using inside
  apply inline
  simpa using infix_of_infix_withValues (by decide) among

/-- Threading a statement gives statements that are read back. -/
theorem isReadable_of_mem_threadedStatements
    (isName : context.names.accumulator.IsName)
    {statement made : Statement}
    (closes : statement.ClosesOnce)
    (inline : '\n' ∉ statement.interior)
    (member : made ∈ context.threadedStatements statement) :
    made.IsReadable := by
  have readable : statement.IsReadable := ⟨closes.holdsNoClosing, inline⟩
  rw [threadedStatements] at member
  split at member
  · rw [List.mem_singleton.mp member]
    exact readable
  · rcases List.mem_append.mp member with member | member
    · exact isReadable_of_mem_setupStatements isName readable member
    · split at member
      · cases member
      · rw [List.mem_singleton.mp member]
        exact ⟨(closesOnce_withValues closes).holdsNoClosing, newline_notMem_withValues inline⟩

/-! ## The calls of the statements made of a statement -/

end ThreadingContext

namespace Call

theorem phrases_eq_nil_of_notMem {text : Text} (absent : 'e' ∉ text) : form.phrases text = [] :=
  (skips_of_notMem absent []).phrases_eq_nil

theorem WellFormed.normalized {call : Call} (formed : call.WellFormed) :
    call.normalized.WellFormed :=
  ⟨List.cons_ne_nil ' ' [], by simp [Call.normalized, Character.isSpace], formed.callee_ne_nil,
    formed.quote_notMem_callee⟩

/-- A call with a part of its argument behind it is the only call of that text. -/
theorem WellFormed.map_callee_phrases
    {call : Call}
    (formed : call.WellFormed)
    {behind : Text}
    (absent : 'e' ∉ (Argument.split behind).2) :
    (form.phrases (opener ++ ([' '] ++ '"' :: (call.callee ++ '"' :: behind)))).map callee =
      [call.callee] := by
  have found : read? (opener ++ ([' '] ++ '"' :: (call.callee ++ '"' :: behind))) =
      some (⟨[' '], call.callee, (Argument.split behind).1⟩, (Argument.split behind).2) :=
    formed.normalized.read?_eq behind
  rw [form.phrases_of_read? found, phrases_eq_nil_of_notMem absent]
  rfl

end Call

namespace Accumulator

theorem skips_appendHead
    {accumulator : Text}
    (absent : 'e' ∉ accumulator)
    (rest : Text) :
    Call.form.Skips (appendHead accumulator) rest := by
  refine Call.skips_of_notMem ?_ rest
  simp [appendHead, absent]

end Accumulator

namespace ThreadingContext

variable {context : ThreadingContext}

/-- A statement that appends the result of a call makes that call and no other. -/
theorem callees_appending_call
    {accumulator : Text}
    (absent : 'e' ∉ accumulator)
    {call : Call}
    (formed : call.WellFormed)
    {rest : Text}
    (cut : Argument.split (call.argument ++ rest) = (call.argument, rest)) :
    (Accumulator.appending accumulator
      (['('] ++ call.normalized.text ++ [')'])).asRead.callees = [call.callee] := by
  have ends : (Accumulator.appending accumulator
      (['('] ++ call.normalized.text ++ [')'])).interior =
      (Accumulator.appendHead accumulator ++ (['('] ++ call.normalized.text)) ++ [')'] := by
    simp [Accumulator.appending]
  have interior : (Accumulator.appending accumulator
      (['('] ++ call.normalized.text ++ [')'])).interior =
      Accumulator.appendHead accumulator ++ (['('] ++
        (Call.opener ++ ([' '] ++ '"' :: (call.callee ++ '"' :: (call.argument ++ [')']))))) := by
    simp [Accumulator.appending, Call.text, Call.normalized]
  have left : 'e' ∉ (Argument.split (call.argument ++ [')'])).2 := by
    intro member
    have paren := (Argument.snd_split_append_paren cut).subset member
    exact absurd paren (by decide)
  rw [Statement.asRead_of_interior_eq_concat ends, if_neg (by decide), Statement.callees, interior,
    Call.form.phrases_append_of_skips (Accumulator.skips_appendHead absent _),
    Call.form.phrases_append_of_skips (Call.skips_of_notMem (by decide) _),
    formed.map_callee_phrases left]

theorem exists_prefix_binding_asRead (temporary : Text) (call : Call) :
    ∃ part, part <+: call.argument ∧
      (binding temporary call).asRead.interior = temporary ++ (" := ".toList ++
        (Call.opener ++ ([' '] ++ '"' :: (call.callee ++ '"' :: part)))) := by
  have interior (part : Text) : temporary ++ (" := ".toList ++
      (Call.opener ++ ([' '] ++ '"' :: (call.callee ++ '"' :: part)))) =
        (temporary ++ (" := ".toList ++ (Call.opener ++ ([' '] ++ '"' :: call.callee)))) ++
          ['"'] ++ part := by
    simp
  have whole : (binding temporary call).interior = temporary ++ (" := ".toList ++
      (Call.opener ++ ([' '] ++ '"' :: (call.callee ++ '"' :: call.argument)))) := by
    simp [binding, Call.text, Call.normalized]
  rcases List.eq_nil_or_concat call.argument with empty | ⟨part, last, equal⟩
  · refine ⟨[], List.nil_prefix, ?_⟩
    rw [interior, empty, List.append_nil] at whole
    rw [Statement.asRead_of_interior_eq_concat whole, if_neg (by decide), whole, interior,
      List.append_nil]
  · rw [List.concat_eq_append] at equal
    rw [interior, equal, ← List.append_assoc] at whole
    rw [Statement.asRead_of_interior_eq_concat whole]
    split
    · exact ⟨part, ⟨[last], equal.symm⟩, by rw [interior]⟩
    · exact ⟨call.argument, List.prefix_rfl, by rw [whole, interior, equal, List.append_assoc]⟩

/-- A statement that binds the result of a call makes that call and no other. -/
theorem callees_binding
    {temporary : Text}
    (isName : temporary.IsName)
    {call : Call}
    (formed : call.WellFormed)
    {rest : Text}
    (cut : Argument.split (call.argument ++ rest) = (call.argument, rest)) :
    (binding temporary call).asRead.callees = [call.callee] := by
  obtain ⟨part, initial, interior⟩ := exists_prefix_binding_asRead temporary call
  have left : 'e' ∉ (Argument.split part).2 := by
    intro member
    have blank := Argument.isBlank_snd_split_of_prefix cut initial
    exact absurd (List.all_eq_true.mp blank 'e' member) (by decide)
  have named : Call.form.Skips temporary (" := ".toList ++
      (Call.opener ++ ([' '] ++ '"' :: (call.callee ++ '"' :: part)))) :=
    Call.skips_name isName (by decide) (by decide) _
  rw [Statement.callees, interior, Call.form.phrases_append_of_skips named,
    Call.form.phrases_append_of_skips (Call.skips_of_notMem (by decide) _),
    formed.map_callee_phrases left]

/-- A statement that appends a component of a pair makes no call. -/
theorem callees_appending_project
    {accumulator pair : Text}
    (absent : 'e' ∉ accumulator)
    (isName : pair.IsName)
    (index : Nat) :
    (Accumulator.appending accumulator (Accumulator.project pair index)).asRead.callees = [] := by
  have ends : (Accumulator.appending accumulator (Accumulator.project pair index)).interior =
      (Accumulator.appendHead accumulator ++
        ("(index ".toList ++ pair ++ [' '] ++ Text.ofNat index)) ++ [')'] := by
    rw [Accumulator.appending, Accumulator.project_eq]
    exact (List.append_assoc _ _ _).symm
  have skips := (Accumulator.skips_appendHead absent (Accumulator.project pair index ++ [])).append
    (Call.skips_project isName index [])
  have none := Call.form.phrases_append_of_skips skips
  rw [List.append_nil, Form.phrases_nil] at none
  rw [Statement.asRead_of_interior_eq_concat ends, if_neg (by decide), Statement.callees,
    Accumulator.appending, none]
  rfl

theorem flatMap_callees_setupOf
    (generated : context.names.IsGenerated)
    {text rest : Text}
    {call : Call}
    (found : Call.read? text = some (call, rest))
    (earlier : Nat) :
    (context.setupOf call earlier).flatMap (fun made => made.asRead.callees) =
      if context.threads call.callee then [call.callee] else [] := by
  have absent := generated.notMem_accumulator (by decide : 'e'.isDigit = false) (by decide)
  have formed := Call.wellFormed_of_read? found
  have cut := Call.split_argument_of_read? found
  have temporary := context.names.temporary_isName call.callee earlier
  rcases context.setupOf_cases call earlier with ⟨pure, none⟩ | ⟨bare, some⟩ | ⟨valued, some⟩
  · simp [none, pure]
  · rw [some, List.flatMap_singleton, callees_appending_call absent formed cut]
    simp [threads, bare, Signature.isProducing]
  · rw [some, List.flatMap_cons, List.flatMap_singleton, callees_binding temporary formed cut,
      callees_appending_project absent temporary]
    simp [threads, valued, Signature.isProducing]

/-- The setup of a statement makes the calls that are threaded, in their order. -/
theorem flatMap_callees_setupFrom
    (generated : context.names.IsGenerated)
    (text : Text)
    (earlier : List Text) :
    (context.setupFrom earlier (Call.form.split text)).flatMap (fun made => made.asRead.callees) =
      ((Call.form.phrases text).map Call.callee).filter context.threads := by
  fun_induction Call.form.split text generalizing earlier with
  | case1 => simp [setupFrom]
  | case2 c tail call rest found inductionHypothesis =>
      rw [setupFrom, List.flatMap_append, flatMap_callees_setupOf generated found,
        inductionHypothesis, Call.form.phrases_of_read? found, List.map_cons, List.filter_cons]
      split <;> rfl
  | case3 c tail notFound inductionHypothesis =>
      rw [setupFrom, inductionHypothesis, Call.form.phrases_cons_of_read?_eq_none notFound]

theorem callees_withValues (statement : Statement) :
    (context.withValues statement).callees =
      statement.callees.filter fun callee => !context.threads callee := by
  rw [Statement.callees, phrases_withValues, Statement.callees, List.filter_map]
  rfl

/-- A statement of which nothing is left makes one call only. -/
theorem exists_callees_eq_of_isSpent {statement : Statement} (spent : context.isSpent statement) :
    ∃ callee, statement.callees = [callee] := by
  rw [isSpent] at spent
  split at spent
  next occurrence only =>
    have phrases := Form.map_phrase_occurrences Call.form statement.interior
    rw [only] at phrases
    refine ⟨occurrence.phrase.callee, ?_⟩
    rw [Statement.callees, ← phrases]
    rfl
  next => cases spent

/-- The statements made of a statement make the calls of that statement. -/
theorem flatMap_callees_threadedStatements_perm
    (generated : context.names.IsGenerated)
    {statement : Statement}
    (closes : statement.ClosesOnce) :
    ((context.threadedStatements statement).flatMap fun made => made.asRead.callees).Perm
      statement.callees := by
  have moved : (context.setupStatements statement).flatMap (fun made => made.asRead.callees) =
      statement.callees.filter context.threads :=
    flatMap_callees_setupFrom generated statement.interior []
  have whole := List.filter_append_perm context.threads statement.callees
  rw [threadedStatements]
  split
  next => simp [closes.asRead_eq]
  next nonempty =>
    rw [List.flatMap_append, moved]
    split
    next spent =>
      -- the only call of the statement is one of those that are moved
      obtain ⟨callee, only⟩ := exists_callees_eq_of_isSpent spent
      have threaded : context.threads callee = true := by
        by_contra pure
        refine nonempty ((context.setupStatements_eq_nil_iff statement).mpr fun call member => ?_)
        have called : call.callee ∈ statement.callees := List.mem_map_of_mem member
        rw [only, List.mem_singleton] at called
        rw [called]
        simpa using pure
      simp [only, threaded]
    next =>
      rw [List.flatMap_singleton, (closesOnce_withValues closes).asRead_eq, callees_withValues]
      exact whole

/-! ## The calls of a text -/

theorem brace_notMem_indentation (line : Text) : '{' ∉ '\n' :: line.indentation := by
  intro member
  have all : line.indentation.all Character.isIndent = true := List.all_takeWhile
  rcases List.mem_cons.mp member with newline | member
  · exact absurd newline (by decide)
  · exact absurd (List.all_eq_true.mp all '{' member) (by decide)

/-- Threading the statements of a text keeps its calls, whatever stands in front on its line. -/
theorem callees_replaceInLineFrom_perm
    (generated : context.names.IsGenerated)
    (text line : Text) :
    (Text.callees (Statement.form.replaceInLineFrom
      (fun line => context.threadStatement line.indentation) line
        (Statement.form.split text))).Perm text.callees := by
  fun_induction Statement.form.split text generalizing line with
  | case1 => simp [Form.replaceInLineFrom]
  | case2 c tail statement rest found inductionHypothesis =>
      have closes := Statement.closesOnce_of_read? found
      have inline := Statement.newline_notMem_interior_of_read? found
      have readable (made : Statement) (member : made ∈ context.threadedStatements statement) :
          made.IsReadable :=
        isReadable_of_mem_threadedStatements generated.accumulator_isName closes inline member
      rw [Form.replaceInLineFrom, Text.callees, Text.callees, Statement.form.phrases_of_read? found,
        Form.phrases, threadStatement_eq_intercalate,
        Statement.split_intercalate_append readable (brace_notMem_indentation _),
        List.filterMap_append, Statement.filterMap_phrase?_laidOut, List.flatMap_append,
        List.flatMap_map, List.flatMap_cons]
      exact (flatMap_callees_threadedStatements_perm generated closes).append
        (inductionHypothesis _)
  | case3 c tail notFound inductionHypothesis =>
      have stillNotFound := Statement.read?_cons_replaceInLineFrom
        (fun line => context.threadStatement line.indentation) notFound
        (if c = '\n' then [] else c :: line)
      rw [Form.replaceInLineFrom, Text.callees,
        Statement.form.phrases_cons_of_read?_eq_none stillNotFound, Text.callees,
        Statement.form.phrases_cons_of_read?_eq_none notFound]
      exact inductionHypothesis _

/-- Threading conserves calls: when calls of unknown templates are left as they are, every text can
be threaded, and the threaded text makes the calls of the text. -/
theorem threadCalls_callees_perm
    (context : ThreadingContext)
    (generated : context.names.IsGenerated)
    (text : Text) :
    ∃ threaded, context.threadCalls .passthrough text = .ok threaded ∧
      threaded.callees.Perm text.callees :=
  ⟨context.threadKnownCalls text, rfl, callees_replaceInLineFrom_perm generated text []⟩

/-- Calls are conserved in a text with nested braces and an argument that is never closed. -/
theorem threadCalls_callees_perm_malformed :
    let context : ThreadingContext :=
      ⟨⟨.reserved, Accumulator.defaultName, []⟩, fun name =>
        if name = "ask".toList then some ⟨.producing, .valued⟩
        else if name = "say".toList then some ⟨.producing, .bare⟩ else none⟩
    let text : Text :=
      (Statement.mk ("a ".toList ++ Statement.opening ++ "execTemplate \"say\" (b".toList)).text ++
        Statement.opening ++ "c\nexecTemplate \"say\" ".toList ++
          (Statement.mk ("x".toList ++ ['}'] ++ "(execTemplate \"ask\" y".toList ++ ['}'] ++
            ") execTemplate \"other\" \"".toList)).text
    context.names.IsGenerated ∧
      text.callees = ["say".toList, "ask".toList, "other".toList] ∧
      ∃ threaded, context.threadCalls .passthrough text = .ok threaded ∧
        threaded.callees.Perm text.callees := by
  intro context text
  have generated : context.names.IsGenerated := NameSupply.isGenerated_reserved
  exact ⟨generated, by decide +kernel, threadCalls_callees_perm context generated text⟩

end ThreadingContext
end OutputThreading
