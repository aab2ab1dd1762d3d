import OutputThreading.Proofs.Call.Closing
import OutputThreading.Proofs.Offset.Threading

/-!
# The call sites of a text

The calls that are found in a text take it apart: their ranges are in order and do not overlap, what
stands in the range of a statement is its call between the rest of the statement, and what stands in
the range of a call spells that call.  Nothing is missed, for no call starts anywhere else in the
interior of a statement (`Offset.calls_decompose`).
-/

namespace OutputThreading

/-! ## The order of call sites -/

/-- One call site comes before another: their calls do not overlap, and neither do their statements,
unless it is the same statement. -/
structure CallSite.Precedes (first second : CallSite) : Prop where
  /-- The first call ends where the second one starts, or before. -/
  callSpan : first.callSpan.stop ≤ second.callSpan.start
  /-- The statement is the same, or the first one ends where the second one starts, or before. -/
  span : first.statement = second.statement ∨ first.span.stop ≤ second.span.start

theorem CallSite.callSpan_eq_shift (site : CallSite) :
    site.callSpan =
      (Span.behind site.call.before site.call.phrase.text).shift
        (site.statement.before ++ Statement.opening).byteSize := by
  simp only [callSpan, Span.behind, Span.shift, Text.byteSize_append, Nat.add_assoc]

/-- The range of a call lies inside of that of its statement. -/
theorem CallSite.callSpan_within_span
    (site : CallSite)
    (member : site.call ∈ Call.form.occurrences site.statement.phrase.interior) :
    site.span.start ≤ site.callSpan.start ∧ site.callSpan.stop ≤ site.span.stop := by
  have interior_eq := Call.form.before_append_write_append_after member
  have size := congrArg Text.byteSize interior_eq
  have written : Call.form.write site.call.phrase = site.call.phrase.text := rfl
  simp only [Text.byteSize_append, written] at size
  simp only [span, callSpan, Span.behind, Statement.text, Text.byteSize_append]
  omega

namespace Text

theorem mem_callSites_iff {text : Text} {site : CallSite} :
    site ∈ text.callSites ↔
      site.statement ∈ Statement.form.occurrences text ∧
        site.call ∈ Call.form.occurrences site.statement.phrase.interior := by
  simp only [callSites, List.mem_flatMap, List.mem_map]
  constructor
  · rintro ⟨statement, isStatement, call, isCall, rfl⟩
    exact ⟨isStatement, isCall⟩
  · rintro ⟨isStatement, isCall⟩
    exact ⟨site.statement, isStatement, site.call, isCall, rfl⟩

/-- The call sites of a text are listed from left to right. -/
theorem pairwise_callSites (text : Text) : text.callSites.Pairwise CallSite.Precedes := by
  rw [callSites, List.pairwise_flatMap]
  constructor
  · intro statement _
    rw [List.pairwise_map]
    refine (Call.form.pairwise_span_occurrences _).imp fun {first second} ordered => ⟨?_, .inl rfl⟩
    rw [CallSite.callSpan_eq_shift, CallSite.callSpan_eq_shift]
    exact Nat.add_le_add_left ordered _
  · refine (Statement.form.pairwise_span_occurrences text).imp ?_
    intro firstStatement secondStatement ordered first isFirst second isSecond
    obtain ⟨firstCall, isFirstCall, rfl⟩ := List.mem_map.mp isFirst
    obtain ⟨secondCall, isSecondCall, rfl⟩ := List.mem_map.mp isSecond
    have firstWithin := CallSite.callSpan_within_span ⟨firstStatement, firstCall⟩ isFirstCall
    have secondWithin := CallSite.callSpan_within_span ⟨secondStatement, secondCall⟩ isSecondCall
    exact ⟨firstWithin.2.trans (ordered.trans secondWithin.1), .inr ordered⟩

/-- Wherever a call can be read in the interior of a statement, the place lies in the range of a call
site. -/
theorem exists_callSite_of_startsCall
    {text front behind : Text}
    {statement : Form.Occurrence Statement}
    (isStatement : statement ∈ Statement.form.occurrences text)
    (interior_eq : statement.phrase.interior = front ++ behind)
    (starts : Call.startsCall behind = true) :
    ∃ site ∈ text.callSites, site.statement = statement ∧
      site.callSpan.start ≤ (statement.before ++ Statement.opening ++ front).byteSize ∧
      (statement.before ++ Statement.opening ++ front).byteSize < site.callSpan.stop := by
  obtain ⟨call, isCall, part, rest, nonempty, front_eq, written⟩ :=
    Call.form.exists_mem_occurrencesFrom_of_read? interior_eq starts
  refine ⟨⟨statement, call⟩, mem_callSites_iff.mpr ⟨isStatement, isCall⟩, rfl, ?_⟩
  have positive : 0 < Text.byteSize rest :=
    Nat.pos_of_ne_zero fun empty => nonempty (Text.eq_nil_of_byteSize_eq_zero empty)
  have written : call.phrase.text = part ++ rest := written
  have front_eq : front = call.before ++ part := front_eq
  simp only [CallSite.callSpan, Span.behind, front_eq, written, Text.byteSize_append]
  omega

end Text

namespace Offset

/-! ## The text at a call site -/

/-- A call with its ranges tells where a call of a text stands in its statement. -/
structure LocatedCall.Locates (located : LocatedCall) (site : CallSite) (text : Text) : Prop where
  /-- The statement is one of the text. -/
  statement_mem : site.statement ∈ Statement.form.occurrences text
  /-- The range of the statement is the one it has in the text, whichever of its calls this is. -/
  span_eq : located.span = site.span
  /-- The range of the call is the one it has in the text. -/
  callSpan_eq : located.callSpan = site.callSpan
  /-- In the range of the statement, the call stands between the rest of the interior, in braces. -/
  slice_span : text.slice? located.span =
    some (Statement.opening ++ located.before ++ site.call.phrase.text ++ located.after ++
      Statement.closing)
  /-- The range of the call starts behind the opening braces and the text in front of the call. -/
  start_callSpan : located.callSpan.start =
    located.span.start + (Statement.opening ++ located.before).byteSize
  /-- In the range of the call stands the call. -/
  slice_callSpan : text.slice? located.callSpan = some site.call.phrase.text
  /-- The call is the word, white space, the quoted name and the argument. -/
  wellFormed : site.call.phrase.WellFormed
  /-- The name is that of the call. -/
  callee_eq : located.callee = site.call.phrase.callee
  /-- The argument is that of the call. -/
  argument_eq : located.argument = site.call.phrase.argument
  /-- The call is written anew with a single space in front of the quoted name. -/
  text_eq : located.text = site.call.phrase.normalized.text

theorem LocatedCall.callSpan_ofSite (site : CallSite) : (ofSite site).callSpan = site.callSpan :=
  site.callSpan_eq_shift.symm

theorem LocatedCall.locates_ofSite
    {text : Text}
    {site : CallSite}
    (member : site ∈ text.callSites) :
    (ofSite site).Locates site text := by
  obtain ⟨isStatement, isCall⟩ := Text.mem_callSites_iff.mp member
  have whole : site.statement.before ++ site.statement.phrase.text ++ site.statement.after = text :=
    Statement.form.before_append_write_append_after isStatement
  have interior_eq : site.call.before ++ site.call.phrase.text ++ site.call.after =
      site.statement.phrase.interior :=
    Call.form.before_append_write_append_after isCall
  obtain ⟨front, behind, pieces_eq, _, _⟩ :=
    Call.form.exists_eq_append_of_mem_occurrencesFrom isCall
  have read := Call.form.read?_eq_some_of_split_eq_cons
    (Call.form.split_join_of_split_eq_append pieces_eq)
  have statement_eq : site.statement.phrase.text =
      Statement.opening ++ site.call.before ++ site.call.phrase.text ++ site.call.after ++
        Statement.closing := by
    rw [Statement.text, ← interior_eq]
    simp only [List.append_assoc]
  refine ⟨isStatement, rfl, callSpan_ofSite site, ?_, ?_, ?_, Call.wellFormed_of_read? read, rfl, rfl,
    rfl⟩
  · change text.slice? site.span =
      some (Statement.opening ++ site.call.before ++ site.call.phrase.text ++ site.call.after ++
        Statement.closing)
    rw [← statement_eq, ← whole, List.append_assoc]
    exact Text.slice?_append _ _ _
  · rw [callSpan_ofSite]
    change Text.byteSize (site.statement.before ++ Statement.opening ++ site.call.before) =
      Text.byteSize site.statement.before + Text.byteSize (Statement.opening ++ site.call.before)
    rw [List.append_assoc, Text.byteSize_append]
  · have around : text =
        (site.statement.before ++ Statement.opening ++ site.call.before) ++
          (site.call.phrase.text ++
            (site.call.after ++ Statement.closing ++ site.statement.after)) := by
      rw [← whole, statement_eq]
      simp only [List.append_assoc]
    rw [callSpan_ofSite, around]
    exact Text.slice?_append _ _ _

/-- The search for calls moves forward with every call and ends, and its calls take the text apart.
They stand at their ranges, the ranges are in order and do not overlap, and wherever the word, white
space and a quoted name stand in the interior of a statement, they start inside of the range of a call
of that statement. -/
theorem calls_decompose (text : Text) :
    calls text = some (text.callSites.map .ofSite) ∧
      text.callSites.Pairwise CallSite.Precedes ∧
      (∀ site ∈ text.callSites, (LocatedCall.ofSite site).Locates site text) ∧
      ∀ statement ∈ Statement.form.occurrences text, ∀ (front behind : Text) (call : Call),
        call.WellFormed → statement.phrase.interior = front ++ call.text ++ behind →
        ∃ site ∈ text.callSites, site.statement = statement ∧
          site.callSpan.start ≤ (statement.before ++ Statement.opening ++ front).byteSize ∧
          (statement.before ++ Statement.opening ++ front).byteSize < site.callSpan.stop := by
  refine ⟨calls_eq text, text.pairwise_callSites, fun site => LocatedCall.locates_ofSite, ?_⟩
  intro statement isStatement front behind call formed interior_eq
  rw [List.append_assoc] at interior_eq
  refine Text.exists_callSite_of_startsCall isStatement interior_eq (Call.startsCall_iff.mpr ?_)
  exact ⟨call, formed, call.argument ++ behind, call.text_append behind⟩

/-! ## Where an argument is cut off -/

/-- An argument in parentheses is cut off where they are closed for the first time outside of literals,
and a literal where its quote is closed.  An argument that ends by itself is cut off again, and read
again with its call, when nothing is left behind it and in front of a closing parenthesis. -/
theorem splitArgument_shortest (text : Text) :
    ∃ argument rest, splitArgument text = some (argument, rest) ∧ argument ++ rest = text ∧
      (∀ spacing tail, Argument.IsSpacing spacing → text = spacing ++ '(' :: tail →
        ∃ part, argument = spacing ++ part ∧
          Text.CutsShortest Argument.IsParenthesized ('(' :: tail) (part, rest)) ∧
      (∀ spacing quote tail, Argument.IsSpacing spacing → quote ∈ ['"', '`'] →
        text = spacing ++ quote :: tail →
        ∃ part, argument = spacing ++ part ∧
          Text.CutsShortest Argument.IsLiteral (quote :: tail) (part, rest)) ∧
      (Argument.IsSettled argument →
        splitArgument argument = some (argument, []) ∧
        (∀ behind, splitArgument (argument ++ ')' :: behind) = some (argument, ')' :: behind)) ∧
        ∀ call : Call, call.WellFormed → call.argument = argument →
          Call.read? call.normalized.text = some (call.normalized, []) ∧
          ∀ behind, Call.read? (call.normalized.text ++ ')' :: behind) =
            some (call.normalized, ')' :: behind)) := by
  refine ⟨(Argument.split text).1, (Argument.split text).2, splitArgument_eq text,
    Argument.split_append text, ?_, ?_, fun settled => ?_⟩
  · rintro spacing tail isSpacing rfl
    rw [Argument.split_spacing_append isSpacing rfl]
    exact ⟨_, rfl, Argument.cutsShortest_paren tail⟩
  · rintro spacing quote tail isSpacing isQuote rfl
    have opens : Argument.opensClosed quote = true := by
      simp only [List.mem_cons, List.not_mem_nil, or_false] at isQuote
      rcases isQuote with rfl | rfl <;> rfl
    rw [Argument.split_spacing_append isSpacing opens]
    exact ⟨_, rfl, Argument.cutsShortest_literal isQuote tail⟩
  · have found : Argument.split ((Argument.split text).1 ++ (Argument.split text).2) =
        ((Argument.split text).1, (Argument.split text).2) := by
      rw [Argument.split_append]
    generalize (Argument.split text).1 = argument at found settled
    have alone := Argument.split_of_isSettled found settled
    have inParen := Argument.split_append_paren_of_isSettled found settled
    refine ⟨by rw [splitArgument_eq, alone], fun behind => by rw [splitArgument_eq, inParen], ?_⟩
    rintro call formed rfl
    have same : call.normalized.argument = call.argument := rfl
    constructor
    · have read : Call.read? (call.normalized.text ++ []) = some (call.normalized, []) :=
        formed.normalized.read?_text_append (by rw [same, List.append_nil, alone])
      rwa [List.append_nil] at read
    · intro behind
      exact formed.normalized.read?_text_append (by rw [same, inParen])

/-- An argument with a parenthesis inside of a literal. -/
theorem splitArgument_shortest_past_literal :
    let argument := " (f \")\")".toList
    Argument.IsSettled argument ∧
      splitArgument (argument ++ " x".toList) = some (argument, " x".toList) ∧
      splitArgument argument = some (argument, []) ∧
      ∀ behind, splitArgument (argument ++ ')' :: behind) = some (argument, ')' :: behind) := by
  intro argument
  have literal : Argument.IsLiteral ['"', ')', '"'] :=
    .quoted (.char (by decide) (by decide) .nil)
  have code : Argument.HasCode "(f \")\")".toList "(f )".toList :=
    .char (by decide) (.char (by decide) (.char (by decide)
      (.literal literal (.char (by decide) .nil))))
  have settled : Argument.IsSettled argument :=
    .paren ⟨List.cons_ne_nil ' ' [], List.forall_mem_singleton.mpr (by decide)⟩
      ⟨rfl, _, code, by decide⟩
  have cut : splitArgument (argument ++ " x".toList) = some (argument, " x".toList) := by
    decide +kernel
  obtain ⟨found, rest, found_eq, _, _, _, again⟩ :=
    splitArgument_shortest (argument ++ " x".toList)
  rw [cut] at found_eq
  obtain ⟨rfl, rfl⟩ := Prod.mk.inj (Option.some.inj found_eq)
  exact ⟨settled, cut, (again settled).1, (again settled).2.1⟩

end Offset
end OutputThreading
