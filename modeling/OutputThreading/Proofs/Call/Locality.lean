import OutputThreading.Proofs.Offset.Threading

/-!
# Threading line by line

A statement does not go over the end of its line, so a line break cuts the search for statements in
two (`Statement.split_append_newline`), and what takes the place of a statement depends on the
statement and on the indentation of its line alone.  So threading the calls of a text threads every
line on its own, although the statements are replaced in the whole text, from the last to the first
(`ThreadingContext.threadCalls_is_line_local`).
-/

namespace OutputThreading

/-! ## Statements on both sides of a line break -/

namespace Statement

/-- Behind a line break the text is searched like a text of its own. -/
theorem split_append_newline (front rest : Text) :
    form.split (front ++ '\n' :: rest) = form.split front ++ .char '\n' :: form.split rest := by
  have lineBreak : form.split ('\n' :: rest) = .char '\n' :: form.split rest :=
    form.split_cons_of_read?_eq_none (read?_cons_of_ne (by decide) rest)
  rw [← lineBreak]
  -- a statement holds no line break, so it ends in front of this one
  exact form.split_append fun _ _ _ => read?_append fun _ _ inline =>
    Text.prefix_of_prefix_append_cons (newline_notMem_text inline)

end Statement

/-! ## Replacing statements on lines -/

/-- A line break ends the line that replacements look at. -/
theorem Form.replaceInLineFrom_append_newline
    {α : Type}
    (form : Form α)
    (replacement : Text → α → Text)
    (line : Text)
    (front rest : List (Piece α)) :
    form.replaceInLineFrom replacement line (front ++ .char '\n' :: rest) =
      form.replaceInLineFrom replacement line front ++
        '\n' :: form.replaceInLineFrom replacement [] rest := by
  induction front generalizing line with
  | nil => rfl
  | cons piece front inductionHypothesis =>
      cases piece with
      | char c =>
          rw [List.cons_append, replaceInLineFrom, inductionHypothesis, replaceInLineFrom,
            List.cons_append]
      | phrase phrase =>
          rw [List.cons_append, replaceInLineFrom, inductionHypothesis, replaceInLineFrom,
            List.append_assoc]

/-- Statements that are replaced according to the indentation in front of them all see the
indentation of their line.  The part of the line already passed is `seen`, its nearest character
first. -/
theorem Statement.replaceInLineFrom_indentation
    (replacement : Text → Statement → Text)
    {seen : Text}
    (seenInline : '\n' ∉ seen)
    {pieces : List (Piece Statement)}
    (inline : '\n' ∉ form.join pieces) :
    form.replaceInLineFrom (fun line => replacement line.indentation) seen pieces =
      pieces.flatMap (Piece.text
        (replacement (Text.indentation (seen.reverse ++ form.join pieces)))) := by
  induction pieces generalizing seen with
  | nil => rfl
  | cons piece pieces inductionHypothesis =>
      rw [Form.join_cons, List.mem_append, not_or] at inline
      obtain ⟨first, others⟩ := inline
      cases piece with
      | char c =>
          have notBreak : c ≠ '\n' := fun isBreak => first (List.mem_singleton.mpr isBreak.symm)
          have passed : '\n' ∉ c :: seen := by
            rw [List.mem_cons, not_or]
            exact ⟨notBreak.symm, seenInline⟩
          rw [Form.replaceInLineFrom, if_neg notBreak, inductionHypothesis passed others,
            List.reverse_cons, List.append_assoc]
          rfl
      | phrase statement =>
          have passed : '\n' ∉ (form.write statement).reverse ++ seen := by
            rw [List.mem_append, List.mem_reverse, not_or]
            exact ⟨first, seenInline⟩
          have whole : ((form.write statement).reverse ++ seen).takeWhile (· ≠ '\n') =
              (form.write statement).reverse ++ seen := by
            refine List.takeWhile_eq_self_iff.mpr fun c member => decide_eq_true ?_
            rintro rfl
            exact passed member
          -- the braces of the statement end the indentation, if nothing else did
          have indentation : Text.indentation seen.reverse =
              Text.indentation (seen.reverse ++ form.join (.phrase statement :: pieces)) :=
            (Text.takeWhile_append_cons (by decide) seen.reverse _).symm
          rw [Form.replaceInLineFrom, whole, inductionHypothesis passed others, indentation,
            List.reverse_append, List.reverse_reverse, List.append_assoc]
          rfl

namespace ThreadingContext

variable (context : ThreadingContext)

/-- Thread the calls of a text that is one line. -/
def threadLine (line : Text) : Text :=
  Statement.form.replace (context.threadStatement line.indentation) line

theorem threadKnownCalls_append_newline (front rest : Text) :
    context.threadKnownCalls (front ++ '\n' :: rest) =
      context.threadKnownCalls front ++ '\n' :: context.threadKnownCalls rest := by
  rw [threadKnownCalls, Form.replaceInLine, Statement.split_append_newline,
    Form.replaceInLineFrom_append_newline]
  rfl

theorem threadKnownCalls_eq_threadLine {line : Text} (inline : '\n' ∉ line) :
    context.threadKnownCalls line = context.threadLine line := by
  have joined : '\n' ∉ Statement.form.join (Statement.form.split line) := by
    rwa [Form.join_split]
  have replaced := Statement.replaceInLineFrom_indentation context.threadStatement
    List.not_mem_nil joined
  rw [Form.join_split] at replaced
  exact replaced

/-- The calls of a text are threaded line by line. -/
theorem threadKnownCalls_eq_intercalate (text : Text) :
    context.threadKnownCalls text =
      List.intercalate ['\n'] ((text.splitOn '\n').map context.threadLine) := by
  induction length : text.length using Nat.strong_induction_on generalizing text with
  | _ length inductionHypothesis =>
      by_cases member : '\n' ∈ text
      · obtain ⟨line, rest, rfl, inline⟩ := List.eq_append_cons_of_mem member
        have others := inductionHypothesis rest.length
          (by
            rw [List.length_append, List.length_cons] at length
            omega) rest rfl
        have further : (rest.splitOn '\n').map context.threadLine ≠ [] := by
          rw [ne_eq, List.map_eq_nil_iff]
          exact List.splitOn_ne_nil '\n' rest
        rw [List.splitOn_append_cons_self, List.splitOn_eq_singleton inline, List.map_append,
          List.map_singleton, List.singleton_append, List.intercalate_cons_of_ne_nil further,
          threadKnownCalls_append_newline, others, context.threadKnownCalls_eq_threadLine inline,
          List.append_assoc, List.singleton_append]
      · rw [List.splitOn_eq_singleton member, List.map_singleton, List.intercalate_singleton,
          context.threadKnownCalls_eq_threadLine member]

/-- A statement without calls to thread stays as it is. -/
theorem threadStatement_eq_text
    {statement : Statement}
    (none : ∀ call ∈ Call.form.phrases statement.interior, context.threads call.callee = false)
    (indentation : Text) :
    context.threadStatement indentation statement = statement.text := by
  rw [threadStatement, setup_eq_map_text, (context.setupStatements_eq_nil_iff statement).mpr none]
  rfl

/-- Threading the calls of a text with a line break is threading those of the text in front of it
and those of the text behind it, also when the statements are replaced in the whole text from the
last to the first.  So every line is threaded on its own, and on a line nothing changes but the
statements with calls to thread. -/
theorem threadCalls_is_line_local (context : ThreadingContext) :
    ∃ thread : Text → Text,
      (∀ text, context.threadCalls .passthrough text = .ok (thread text)) ∧
      (Offset.FindsTemporaries context.names → ∀ text,
        Offset.threadCalls context .passthrough text = pure (thread text)) ∧
      (∀ front rest, thread (front ++ '\n' :: rest) = thread front ++ '\n' :: thread rest) ∧
      (∀ text, thread text =
        List.intercalate ['\n'] ((text.splitOn '\n').map context.threadLine)) ∧
      ∀ indentation statement,
        (∀ call ∈ Call.form.phrases statement.interior, context.threads call.callee = false) →
        context.threadStatement indentation statement = statement.text := by
  refine ⟨context.threadKnownCalls, fun text => rfl, fun finds text => ?_,
    context.threadKnownCalls_append_newline, context.threadKnownCalls_eq_intercalate,
    fun indentation statement none => context.threadStatement_eq_text none indentation⟩
  rw [Offset.threadCalls_eq context finds]
  rfl

/-- A call that is cut in two by the line break, behind a statement with a parenthesis left open. -/
theorem threadCalls_is_line_local_malformed :
    let context : ThreadingContext :=
      ⟨⟨.reserved, Accumulator.defaultName, []⟩, fun name =>
        if name = "ask".toList then some ⟨.producing, .valued⟩ else none⟩
    let statement (interior : String) : Text := (Statement.mk interior.toList).text
    let append : Text := statement "$output = joinStr \"\\n\" $output (index $askOutput 0)"
    let cut : Text := Statement.opening ++ "execTemplate \"ask\"".toList
    let front : Text := "  ".toList ++ statement "f (execTemplate \"ask\" (1)" ++ cut
    let rest : Text := Statement.closing ++ ['\t'] ++ statement "execTemplate \"ask\""
    Offset.FindsTemporaries context.names ∧
      ∃ threadedFront threadedRest,
        Offset.threadCalls context .passthrough (front ++ '\n' :: rest) =
          pure (threadedFront ++ '\n' :: threadedRest) ∧
        threadedFront = "  ".toList ++ statement "$askOutput := execTemplate \"ask\" (1)" ++
          "\n  ".toList ++ append ++ "\n  ".toList ++ statement "f ((index $askOutput 1)" ++ cut ∧
        threadedRest = Statement.closing ++ ['\t'] ++
          statement "$askOutput := execTemplate \"ask\"" ++ ['\n'] ++ append := by
  intro context statement append cut front rest
  have finds : Offset.FindsTemporaries context.names := fun _ _ => rfl
  obtain ⟨thread, threads, spliced, breaks, _⟩ := threadCalls_is_line_local context
  have whole := spliced finds (front ++ '\n' :: rest)
  rw [breaks] at whole
  refine ⟨finds, thread front, thread rest, whole, ?_, ?_⟩
  · exact Except.ok.inj ((threads front).symm.trans (by decide +kernel))
  · exact Except.ok.inj ((threads rest).symm.trans (by decide +kernel))

end ThreadingContext
end OutputThreading
