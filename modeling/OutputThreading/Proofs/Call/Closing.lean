import OutputThreading.Proofs.Call.Balance

/-!
# Where an argument ends

An argument in parentheses ends where every parenthesis that was opened outside of literals is closed
for the first time, and an argument that is a literal ends at its closing quote; without such a place
the argument is the whole text (`Argument.cutsShortest_paren`, `Argument.cutsShortest_literal`).  This
is said without the nesting of the scan: what counts of a text is what is left of it once its literals
are taken out (`Argument.HasCode`).  There is only one way to cut a text like that, so closed
parentheses are cut off again whatever follows them (`Argument.split_append_of_isSettled`).
-/

namespace OutputThreading

/-! ## Shortest initial parts -/

namespace Text

/-- A text is cut behind its shortest initial part with a property, or at its end if there is none. -/
inductive CutsShortest (property : Text → Prop) (text : Text) : Text × Text → Prop
  /-- The part that is taken has the property, and no shorter one has. -/
  | found
      {taken rest : Text}
      (text_eq : taken ++ rest = text)
      (holds : property taken)
      (shortest : ∀ part, part <+: taken → property part → part = taken) :
      CutsShortest property text (taken, rest)
  /-- No initial part has the property. -/
  | missing
      (absent : ∀ part, part <+: text → ¬ property part) :
      CutsShortest property text (text, [])

variable {property other : Text → Prop}

/-- There is only one way to cut a text behind its shortest initial part. -/
theorem CutsShortest.unique
    {text : Text}
    {first second : Text × Text}
    (cut : CutsShortest property text first)
    (again : CutsShortest property text second) :
    first = second := by
  cases cut with
  | @found taken rest text_eq holds shortest =>
      cases again with
      | @found taken' rest' text_eq' holds' shortest' =>
          have same : taken = taken' := by
            rcases List.prefix_or_prefix_of_prefix ⟨rest, text_eq⟩ ⟨rest', text_eq'⟩ with
              initial | initial
            · exact shortest' taken initial holds
            · exact (shortest taken' initial holds').symm
          subst same
          rw [List.append_cancel_left (text_eq.trans text_eq'.symm)]
      | missing absent => exact absurd holds (absent taken ⟨rest, text_eq⟩)
  | missing absent =>
      cases again with
      | @found taken rest text_eq holds _ => exact absurd holds (absent taken ⟨rest, text_eq⟩)
      | missing => rfl

/-- If the part that is taken has the property, no shorter one has. -/
theorem CutsShortest.eq_of_prefix
    {text taken rest part : Text}
    (cut : CutsShortest property text (taken, rest))
    (holds : property taken)
    (initial : part <+: taken)
    (holdsPart : property part) :
    part = taken := by
  generalize parts_eq : (taken, rest) = parts at cut
  cases cut with
  | found _ _ shortest =>
      obtain ⟨rfl, rfl⟩ := Prod.mk.inj parts_eq
      exact shortest part initial holdsPart
  | missing absent =>
      obtain ⟨rfl, rfl⟩ := Prod.mk.inj parts_eq
      exact absurd holds (absent _ List.prefix_rfl)

/-- Text in front moves the cut if it is taken whole and changes the property into another one. -/
theorem CutsShortest.append
    {front text : Text}
    {parts : Text × Text}
    (cut : CutsShortest other text parts)
    (moved : ∀ part, property (front ++ part) ↔ other part)
    (whole : ∀ part, part <+: front → property part → part = front) :
    CutsShortest property (front ++ text) (front ++ parts.1, parts.2) := by
  -- an initial part of the longer text with the property goes on behind the text in front
  have behind {part text : Text} (initial : part <+: front ++ text) (holds : property part) :
      ∃ rest, part = front ++ rest ∧ rest <+: text ∧ other rest := by
    rcases List.prefix_or_prefix_of_prefix initial (List.prefix_append front text) with
      short | ⟨rest, rfl⟩
    · obtain rfl := whole part short holds
      exact ⟨[], by simp, List.nil_prefix, (moved []).mp (by simpa using holds)⟩
    · exact ⟨rest, rfl, (List.prefix_append_right_inj front).mp initial, (moved rest).mp holds⟩
  cases cut with
  | @found taken rest text_eq holds shortest =>
      refine .found (by rw [List.append_assoc, text_eq]) ((moved taken).mpr holds) ?_
      intro part initial holdsPart
      obtain ⟨tail, rfl, tailInitial, tailHolds⟩ := behind initial holdsPart
      rw [shortest tail tailInitial tailHolds]
  | missing absent =>
      refine .missing fun part initial holdsPart => ?_
      obtain ⟨tail, rfl, tailInitial, tailHolds⟩ := behind initial holdsPart
      exact absent tail tailInitial tailHolds

end Text

namespace Argument

/-! ## Literals -/

theorem IsLiteral.takeClosed_append
    {literal : Text}
    (isLiteral : IsLiteral literal)
    (rest : Text) :
    takeClosed (.code 0) (literal ++ rest) = (literal, rest) := by
  obtain ⟨c, front, quote, _, rfl, leads, closes⟩ := isLiteral.exists_leads 0
  exact leads.takeClosed_concat_append closes rest

/-- A literal inside of parentheses is taken whole. -/
theorem IsLiteral.takeClosed_succ_append
    {literal : Text}
    (isLiteral : IsLiteral literal)
    (depth : Nat)
    (rest : Text) :
    takeClosed (.code (depth + 1)) (literal ++ rest) =
      (literal ++ (takeClosed (.code (depth + 1)) rest).1,
        (takeClosed (.code (depth + 1)) rest).2) := by
  obtain ⟨c, front, quote, _, rfl, leads, closes⟩ := isLiteral.exists_leads (depth + 1)
  have leadsBehind := leads.append (.single closes (by simp [Nesting.isClosed]))
  exact leadsBehind.takeClosed_append rest

/-- A text starts with one literal at most. -/
theorem IsLiteral.eq_of_append_eq
    {literal other rest behind : Text}
    (isLiteral : IsLiteral literal)
    (isOther : IsLiteral other)
    (same : literal ++ rest = other ++ behind) :
    literal = other := by
  have cut := isLiteral.takeClosed_append rest
  rw [same, isOther.takeClosed_append] at cut
  exact (Prod.mk.inj cut).1.symm

theorem IsLiteral.exists_cons {literal : Text} (isLiteral : IsLiteral literal) :
    ∃ quote tail, quote ∈ ['"', '`'] ∧ literal = quote :: tail := by
  cases isLiteral with
  | quoted => exact ⟨_, _, by simp, rfl⟩
  | raw => exact ⟨_, _, by simp, rfl⟩

/-- Without a quote that closes it, a quoted literal takes the whole text. -/
theorem takeClosed_quoted_of_absent
    {text : Text}
    (absent : ∀ inside behind, IsQuotable inside → text ≠ inside ++ '"' :: behind)
    (depth : Nat) :
    takeClosed (.literal '"' depth) text = (text, []) := by
  cases text with
  | nil => rfl
  | cons c rest =>
      have notQuote : c ≠ '"' := by
        rintro rfl
        exact absent [] rest .nil rfl
      by_cases backslash : c = '\\'
      · subst backslash
        cases rest with
        | nil => rfl
        | cons d rest =>
            have others : takeClosed (.literal '"' depth) rest = (rest, []) := by
              refine takeClosed_quoted_of_absent (fun inside behind quotable equal => ?_) depth
              exact absent ('\\' :: d :: inside) behind (quotable.escape d) (by rw [equal]; rfl)
            simp [takeClosed, Nesting.next, Nesting.isClosed, others]
      · have others : takeClosed (.literal '"' depth) rest = (rest, []) := by
          refine takeClosed_quoted_of_absent (fun inside behind quotable equal => ?_) depth
          exact absent (c :: inside) behind (quotable.char notQuote backslash) (by rw [equal]; rfl)
        simp [takeClosed, Nesting.next, Nesting.isClosed, notQuote, backslash, others]
termination_by text.length

/-- Without a quote that closes it, a literal takes the whole text. -/
theorem takeClosed_of_no_literal
    {quote : Char}
    (isQuote : quote ∈ ['"', '`'])
    {rest : Text}
    (absent : ∀ literal, literal <+: quote :: rest → ¬ IsLiteral literal)
    (depth : Nat) :
    takeClosed (.code depth) (quote :: rest) = (quote :: rest, []) := by
  simp only [List.mem_cons, List.not_mem_nil, or_false] at isQuote
  have opened : takeClosed (.literal quote depth) rest = (rest, []) := by
    rcases isQuote with rfl | rfl
    · refine takeClosed_quoted_of_absent (fun inside behind quotable equal => ?_) depth
      refine absent ('"' :: (inside ++ ['"'])) ⟨behind, ?_⟩ (.quoted quotable)
      simp [equal]
    · have noQuote : '`' ∉ rest := by
        intro member
        obtain ⟨inside, behind, rfl, noQuote⟩ := List.eq_append_cons_of_mem member
        refine absent ('`' :: (inside ++ ['`'])) ⟨behind, ?_⟩ (.raw noQuote)
        simp
      have whole := (leads_raw noQuote depth).takeClosed_append []
      simpa [takeClosed] using whole
  have next_eq : Nesting.next (.code depth) quote = .literal quote depth := by
    simp [Nesting.next, isQuote]
  rw [takeClosed, next_eq, opened]
  rfl

/-- A literal ends at its first closing quote, or takes the whole text. -/
theorem cutsShortest_literal
    {quote : Char}
    (isQuote : quote ∈ ['"', '`'])
    (tail : Text) :
    Text.CutsShortest IsLiteral (quote :: tail) (takeClosed (.code 0) (quote :: tail)) := by
  by_cases exists_literal : ∃ literal, literal <+: quote :: tail ∧ IsLiteral literal
  · obtain ⟨literal, ⟨behind, text_eq⟩, isLiteral⟩ := exists_literal
    rw [← text_eq, isLiteral.takeClosed_append]
    refine .found rfl isLiteral fun part initial isPart => ?_
    obtain ⟨rest, rfl⟩ := initial
    exact isPart.eq_of_append_eq isLiteral (List.append_nil (part ++ rest)).symm
  · have absent : ∀ literal, literal <+: quote :: tail → ¬ IsLiteral literal :=
      fun literal initial isLiteral => exists_literal ⟨literal, initial, isLiteral⟩
    rw [takeClosed_of_no_literal isQuote absent]
    exact .missing absent

/-! ## Parentheses outside of literals -/

/-- A text is made of literals and of other characters, and these are its code. -/
inductive HasCode : (text code : Text) → Prop
  /-- There is no text. -/
  | nil : HasCode [] []
  /-- A character outside of literals. -/
  | char
      {c : Char}
      {text code : Text}
      (notQuote : c ∉ ['"', '`'])
      (others : HasCode text code) :
      HasCode (c :: text) (c :: code)
  /-- A literal. -/
  | literal
      {literal text code : Text}
      (isLiteral : IsLiteral literal)
      (others : HasCode text code) :
      HasCode (literal ++ text) code

/-- Code starts with the first character of the text unless that is a quote. -/
theorem hasCode_cons_iff
    {c : Char}
    (notQuote : c ∉ ['"', '`'])
    {text code : Text} :
    HasCode (c :: text) code ↔ ∃ others, code = c :: others ∧ HasCode text others := by
  constructor
  · intro hasCode
    generalize whole_eq : c :: text = whole at hasCode
    cases hasCode with
    | nil => cases whole_eq
    | char _ others =>
        obtain ⟨rfl, rfl⟩ := List.cons.inj whole_eq
        exact ⟨_, rfl, others⟩
    | literal isLiteral others =>
        obtain ⟨quote, tail, isQuote, rfl⟩ := isLiteral.exists_cons
        exact absurd ((List.cons.inj whole_eq).1 ▸ isQuote) notQuote
  · rintro ⟨others, rfl, hasCode⟩
    exact .char notQuote hasCode

/-- If a text that starts with a quote has code, a literal starts it. -/
theorem HasCode.exists_literal
    {quote : Char}
    (isQuote : quote ∈ ['"', '`'])
    {text code : Text}
    (hasCode : HasCode (quote :: text) code) :
    ∃ literal rest, IsLiteral literal ∧ quote :: text = literal ++ rest ∧ HasCode rest code := by
  generalize whole_eq : quote :: text = whole at hasCode
  cases hasCode with
  | nil => cases whole_eq
  | char notQuote others => exact absurd ((List.cons.inj whole_eq).1 ▸ isQuote) notQuote
  | literal isLiteral others => exact ⟨_, _, isLiteral, rfl, others⟩

/-- A literal in front of a text adds nothing to its code. -/
theorem hasCode_literal_append_iff
    {literal : Text}
    (isLiteral : IsLiteral literal)
    {text code : Text} :
    HasCode (literal ++ text) code ↔ HasCode text code := by
  refine ⟨fun hasCode => ?_, .literal isLiteral⟩
  obtain ⟨quote, tail, isQuote, rfl⟩ := isLiteral.exists_cons
  obtain ⟨found, rest, isFound, same, others⟩ := hasCode.exists_literal isQuote
  obtain rfl := isLiteral.eq_of_append_eq isFound same
  have rest_eq : text = rest := by simpa using same
  rwa [rest_eq]

/-- Outside of literals the text closes all its parentheses, and as many more as are open. -/
def Closes (opened : Nat) (text : Text) : Prop :=
  ∃ code, HasCode text code ∧ code.count '(' + opened = code.count ')'

theorem not_closes_nil (opened : Nat) : ¬ Closes (opened + 1) [] := by
  rintro ⟨code, hasCode, counts⟩
  generalize whole_eq : ([] : Text) = whole at hasCode
  cases hasCode with
  | nil => cases counts
  | char => cases whole_eq
  | literal isLiteral =>
      obtain ⟨quote, tail, _, rfl⟩ := isLiteral.exists_cons
      cases whole_eq

/-- A character outside of literals changes how many parentheses are left to close. -/
theorem closes_cons_iff_of_count
    {c : Char}
    (notQuote : c ∉ ['"', '`'])
    {opened after : Nat}
    (counts : ∀ code : Text, List.count '(' (c :: code) + opened = List.count ')' (c :: code) ↔
      code.count '(' + after = code.count ')')
    {text : Text} :
    Closes opened (c :: text) ↔ Closes after text := by
  simp only [Closes, hasCode_cons_iff notQuote]
  constructor
  · rintro ⟨_, ⟨code, rfl, hasCode⟩, equal⟩
    exact ⟨code, hasCode, (counts code).mp equal⟩
  · rintro ⟨code, hasCode, equal⟩
    exact ⟨_, ⟨code, rfl, hasCode⟩, (counts code).mpr equal⟩

theorem closes_open_cons_iff {opened : Nat} {text : Text} :
    Closes opened ('(' :: text) ↔ Closes (opened + 1) text :=
  closes_cons_iff_of_count (by decide) fun code => by simp; omega

theorem closes_close_cons_iff {opened : Nat} {text : Text} :
    Closes (opened + 1) (')' :: text) ↔ Closes opened text :=
  closes_cons_iff_of_count (by decide) fun code => by simp; omega

theorem closes_cons_iff
    {c : Char}
    (plain : c ∉ ['"', '`', '(', ')'])
    {opened : Nat}
    {text : Text} :
    Closes opened (c :: text) ↔ Closes opened text := by
  simp only [List.mem_cons, List.not_mem_nil, or_false, not_or] at plain
  exact closes_cons_iff_of_count (by simp [plain]) fun code => by simp [plain]

theorem closes_literal_append_iff
    {literal : Text}
    (isLiteral : IsLiteral literal)
    {opened : Nat}
    {text : Text} :
    Closes opened (literal ++ text) ↔ Closes opened text := by
  simp only [Closes, hasCode_literal_append_iff isLiteral]

/-- While parentheses are open, a part that closes them takes in the first character. -/
theorem eq_of_prefix_singleton
    {c : Char}
    {opened : Nat}
    {part : Text}
    (initial : part <+: [c])
    (closes : Closes (opened + 1) part) :
    part = [c] := by
  rcases List.prefix_cons_iff.mp initial with rfl | ⟨rest, rfl, empty⟩
  · exact absurd closes (not_closes_nil opened)
  · rw [List.prefix_nil.mp empty]

/-- While parentheses are open, a part that closes them takes in the literal that starts it. -/
theorem exists_literal_prefix
    {quote : Char}
    (isQuote : quote ∈ ['"', '`'])
    {opened : Nat}
    {part text : Text}
    (initial : part <+: quote :: text)
    (closes : Closes (opened + 1) part) :
    ∃ literal, literal <+: part ∧ IsLiteral literal := by
  rcases List.prefix_cons_iff.mp initial with rfl | ⟨rest, rfl, _⟩
  · exact absurd closes (not_closes_nil opened)
  · obtain ⟨code, hasCode, _⟩ := closes
    obtain ⟨literal, behind, isLiteral, part_eq, _⟩ := hasCode.exists_literal isQuote
    exact ⟨literal, ⟨behind, part_eq.symm⟩, isLiteral⟩

/-- While parentheses are open, a part of a literal that closes them is the whole literal. -/
theorem eq_of_prefix_literal
    {literal part : Text}
    {opened : Nat}
    (isLiteral : IsLiteral literal)
    (initial : part <+: literal)
    (closes : Closes (opened + 1) part) :
    part = literal := by
  obtain ⟨quote, tail, isQuote, literal_eq⟩ := isLiteral.exists_cons
  obtain ⟨found, inPart, isFound⟩ := exists_literal_prefix isQuote (literal_eq ▸ initial) closes
  obtain ⟨rest, whole⟩ := inPart.trans initial
  have same := isFound.eq_of_append_eq isLiteral (whole.trans (List.append_nil literal).symm)
  exact initial.eq_of_length_le (same ▸ inPart.length_le)

/-- A character that leaves parentheses open is taken, and the text behind it is cut. -/
theorem cutsShortest_cons
    {opened after : Nat}
    {c : Char}
    (next_eq : Nesting.next (.code (opened + 1)) c = .code (after + 1))
    (moved : ∀ part, Closes (opened + 1) (c :: part) ↔ Closes (after + 1) part)
    {rest : Text}
    (cut : Text.CutsShortest (Closes (after + 1)) rest (takeClosed (.code (after + 1)) rest)) :
    Text.CutsShortest (Closes (opened + 1)) (c :: rest)
      (takeClosed (.code (opened + 1)) (c :: rest)) := by
  have leads : Nesting.Leads (.code (opened + 1)) [c] (.code (after + 1)) :=
    .single next_eq (by simp [Nesting.isClosed])
  rw [← List.singleton_append, leads.takeClosed_append]
  exact cut.append moved fun part => eq_of_prefix_singleton

/-- While parentheses are open, the text is taken up to where they are closed for the first time. -/
theorem cutsShortest_takeClosed (opened : Nat) (text : Text) :
    Text.CutsShortest (Closes (opened + 1)) text (takeClosed (.code (opened + 1)) text) := by
  cases text with
  | nil =>
      refine .missing fun part initial => ?_
      rw [List.prefix_nil.mp initial]
      exact not_closes_nil opened
  | cons c rest =>
      by_cases isQuote : c ∈ ['"', '`']
      · by_cases exists_literal : ∃ literal, literal <+: c :: rest ∧ IsLiteral literal
        · -- the literal is passed over as a whole
          obtain ⟨literal, ⟨behind, text_eq⟩, isLiteral⟩ := exists_literal
          have shorter : behind.length < rest.length + 1 := by
            obtain ⟨quote, tail, _, rfl⟩ := isLiteral.exists_cons
            have size := congrArg List.length text_eq
            simp only [List.cons_append, List.length_cons, List.length_append] at size
            omega
          rw [← text_eq, isLiteral.takeClosed_succ_append]
          exact (cutsShortest_takeClosed opened behind).append
            (fun part => closes_literal_append_iff isLiteral)
            fun part => eq_of_prefix_literal isLiteral
        · have absent : ∀ literal, literal <+: c :: rest → ¬ IsLiteral literal :=
            fun literal initial isLiteral => exists_literal ⟨literal, initial, isLiteral⟩
          rw [takeClosed_of_no_literal isQuote absent]
          refine .missing fun part initial closes => ?_
          obtain ⟨literal, inPart, isLiteral⟩ := exists_literal_prefix isQuote initial closes
          exact absent literal (inPart.trans initial) isLiteral
      by_cases opens : c = '('
      · subst opens
        exact cutsShortest_cons rfl (fun part => closes_open_cons_iff)
          (cutsShortest_takeClosed (opened + 1) rest)
      by_cases closes : c = ')'
      · subst closes
        cases opened with
        | zero =>
            -- the last open parenthesis is closed
            have taken : takeClosed (.code 1) (')' :: rest) = ([')'], rest) := rfl
            rw [taken]
            refine .found rfl ?_ fun part => eq_of_prefix_singleton
            exact closes_close_cons_iff.mpr ⟨[], .nil, rfl⟩
        | succ opened =>
            exact cutsShortest_cons rfl (fun part => closes_close_cons_iff)
              (cutsShortest_takeClosed opened rest)
      simp only [List.mem_cons, List.not_mem_nil, or_false, not_or] at isQuote
      have next_eq : Nesting.next (.code (opened + 1)) c = .code (opened + 1) := by
        simp [Nesting.next, isQuote, opens, closes]
      exact cutsShortest_cons next_eq
        (fun part => closes_cons_iff (by simp [isQuote, opens, closes]))
        (cutsShortest_takeClosed opened rest)
termination_by text.length

/-! ## Arguments that end by themselves -/

/-- The text starts with a parenthesis and closes every parenthesis that it opens outside of
literals. -/
def IsParenthesized (text : Text) : Prop :=
  text.head? = some '(' ∧ ∃ code, HasCode text code ∧ code.count '(' = code.count ')'

theorem isParenthesized_open_cons_iff {text : Text} :
    IsParenthesized ('(' :: text) ↔ Closes 1 text := by
  rw [← closes_open_cons_iff]
  simp [IsParenthesized, Closes]

/-- An argument in parentheses ends where they are closed for the first time, or takes the whole
text. -/
theorem cutsShortest_paren (tail : Text) :
    Text.CutsShortest IsParenthesized ('(' :: tail) (takeClosed (.code 0) ('(' :: tail)) := by
  have opened := (Nesting.Leads.single (show Nesting.next (.code 0) '(' = .code 1 from rfl)
    rfl).takeClosed_append tail
  rw [← List.singleton_append, opened]
  refine (cutsShortest_takeClosed 0 tail).append (fun part => isParenthesized_open_cons_iff) ?_
  intro part initial holds
  rcases List.prefix_cons_iff.mp initial with rfl | ⟨rest, rfl, empty⟩
  · cases holds.1
  · rw [List.prefix_nil.mp empty]

/-- White space that sets off an argument. -/
structure IsSpacing (text : Text) : Prop where
  /-- There is some. -/
  ne_nil : text ≠ []
  /-- There is nothing else. -/
  blank : ∀ c ∈ text, Character.isSpace c = true

/-- Behind white space, a parenthesis or a quote starts an argument that runs to where it closes. -/
theorem split_spacing_append
    {spacing : Text}
    (isSpacing : IsSpacing spacing)
    {c : Char}
    (opens : opensClosed c = true)
    (tail : Text) :
    split (spacing ++ c :: tail) =
      (spacing ++ (takeClosed (.code 0) (c :: tail)).1, (takeClosed (.code 0) (c :: tail)).2) := by
  have solid := isSpace_eq_false_of_opensClosed opens
  rw [split, Text.leadingSpace_append_solid isSpacing.blank solid,
    Text.trimStart_append_solid isSpacing.blank solid, if_neg isSpacing.ne_nil]
  simp [splitTight, opens]

/-- An argument with the white space in front of it ends by itself: it is complete, or it stands in
parentheses that are closed. -/
inductive IsSettled : Text → Prop
  /-- There is no argument, or it is an operand, a literal or balanced text in parentheses. -/
  | complete
      {argument : Text}
      (complete : IsComplete argument) :
      IsSettled argument
  /-- All parentheses are closed. -/
  | paren
      {spacing part : Text}
      (isSpacing : IsSpacing spacing)
      (isParenthesized : IsParenthesized part) :
      IsSettled (spacing ++ part)

/-- Parentheses that were closed for the first time are so whatever follows them. -/
theorem split_append_of_isParenthesized
    {spacing part rest : Text}
    (isSpacing : IsSpacing spacing)
    (isParenthesized : IsParenthesized part)
    (found : split (spacing ++ part ++ rest) = (spacing ++ part, rest))
    (behind : Text) :
    split (spacing ++ part ++ behind) = (spacing ++ part, behind) := by
  obtain ⟨tail, rfl⟩ := List.head?_eq_some_iff.mp isParenthesized.1
  have cutAt (rest : Text) : split (spacing ++ '(' :: tail ++ rest) =
      (spacing ++ (takeClosed (.code 0) ('(' :: tail ++ rest)).1,
        (takeClosed (.code 0) ('(' :: tail ++ rest)).2) := by
    rw [List.append_assoc]
    exact split_spacing_append isSpacing rfl (tail ++ rest)
  rw [cutAt] at found
  have taken : takeClosed (.code 0) ('(' :: tail ++ rest) = ('(' :: tail, rest) :=
    Prod.ext (List.append_cancel_left (Prod.mk.inj found).1) (Prod.mk.inj found).2
  have cut := cutsShortest_paren (tail ++ rest)
  rw [← List.cons_append, taken] at cut
  have again : takeClosed (.code 0) ('(' :: tail ++ behind) = ('(' :: tail, behind) :=
    (cutsShortest_paren (tail ++ behind)).unique
      (.found rfl isParenthesized fun _ => cut.eq_of_prefix isParenthesized)
  rw [cutAt, again]

/-- A settled argument that was cut off is cut off again at the end of a text and in front of a
closing parenthesis. -/
theorem split_append_of_isSettled
    {argument rest : Text}
    (found : split (argument ++ rest) = (argument, rest))
    (settled : IsSettled argument)
    {behind : Text}
    (ends : ∀ c, behind.trimStart.head? = some c → c = ')') :
    split (argument ++ behind) = (argument, behind) := by
  cases settled with
  | complete complete => exact complete.split_append ends
  | paren isSpacing isParenthesized =>
      exact split_append_of_isParenthesized isSpacing isParenthesized found behind

/-- A settled argument is an argument when nothing follows it. -/
theorem split_of_isSettled
    {argument rest : Text}
    (found : split (argument ++ rest) = (argument, rest))
    (settled : IsSettled argument) :
    split argument = (argument, []) := by
  have cut : split (argument ++ []) = (argument, []) :=
    split_append_of_isSettled found settled fun c first => by cases first
  rwa [List.append_nil] at cut

/-- A settled argument ends in front of a closing parenthesis. -/
theorem split_append_paren_of_isSettled
    {argument rest : Text}
    (found : split (argument ++ rest) = (argument, rest))
    (settled : IsSettled argument)
    (behind : Text) :
    split (argument ++ ')' :: behind) = (argument, ')' :: behind) := by
  refine split_append_of_isSettled found settled fun c first => ?_
  rw [Text.trimStart_cons_of_not_space (by decide)] at first
  exact (Option.some.inj first).symm

end Argument
end OutputThreading
