import OutputThreading.Proofs.Call.Argument

/-!
# Complete arguments

An argument is complete if it is an operand, a literal with both of its quotes, or parentheses with
balanced text between them.  Such an argument ends where it ends, however the text behind it goes on
after a closing parenthesis (`Argument.IsComplete.split_append`): what stands between its first and
its last character never closes everything (`Argument.Nesting.Leads`).
-/

namespace OutputThreading
namespace Argument

/-! ## Balanced text -/

/-- Text between the quotes of a quoted literal: every quote in it stands behind a backslash, and no
backslash is left over. -/
inductive IsQuotable : Text → Prop where
  /-- There is nothing between the quotes. -/
  | nil : IsQuotable []
  /-- A character that stands for itself. -/
  | char
      {c : Char}
      {rest : Text}
      (notQuote : c ≠ '"')
      (notBackslash : c ≠ '\\')
      (others : IsQuotable rest) :
      IsQuotable (c :: rest)
  /-- A character behind a backslash. -/
  | escape
      (c : Char)
      {rest : Text}
      (others : IsQuotable rest) :
      IsQuotable ('\\' :: c :: rest)

/-- A literal with both of its quotes. -/
inductive IsLiteral : Text → Prop where
  /-- A quoted literal. -/
  | quoted {inside : Text} (quotable : IsQuotable inside) : IsLiteral ('"' :: (inside ++ ['"']))
  /-- A raw literal. -/
  | raw {inside : Text} (noQuote : '`' ∉ inside) : IsLiteral ('`' :: (inside ++ ['`']))

/-- Text in which parentheses are balanced outside of literals, and literals have both quotes. -/
inductive IsBalanced : Text → Prop where
  /-- There is no text. -/
  | nil : IsBalanced []
  /-- A character that neither opens nor closes anything. -/
  | char
      {c : Char}
      {rest : Text}
      (other : c ∉ ['(', ')', '"', '`'])
      (others : IsBalanced rest) :
      IsBalanced (c :: rest)
  /-- A literal. -/
  | literal
      {literal rest : Text}
      (isLiteral : IsLiteral literal)
      (others : IsBalanced rest) :
      IsBalanced (literal ++ rest)
  /-- Balanced text in parentheses. -/
  | paren
      {inside rest : Text}
      (balanced : IsBalanced inside)
      (others : IsBalanced rest) :
      IsBalanced ('(' :: (inside ++ ')' :: rest))

/-! ## Passing over balanced text -/

namespace Nesting

/-- The text leads from one nesting to another, and everything is closed nowhere in between. -/
inductive Leads : Nesting → Text → Nesting → Prop where
  /-- No text leads nowhere else. -/
  | nil (nesting : Nesting) : Leads nesting [] nesting
  /-- The first character does not close everything. -/
  | cons
      {nesting after : Nesting}
      {c : Char}
      {rest : Text}
      (notClosed : (nesting.next c).isClosed = false)
      (others : Leads (nesting.next c) rest after) :
      Leads nesting (c :: rest) after

theorem Leads.append
    {nesting between after : Nesting}
    {front rest : Text}
    (first : Leads nesting front between)
    (second : Leads between rest after) :
    Leads nesting (front ++ rest) after := by
  induction first with
  | nil => exact second
  | cons notClosed others inductionHypothesis => exact .cons notClosed (inductionHypothesis second)

theorem Leads.single
    {nesting after : Nesting}
    {c : Char}
    (next_eq : nesting.next c = after)
    (notClosed : after.isClosed = false) :
    Leads nesting [c] after := by
  subst next_eq
  exact .cons notClosed (.nil _)

/-- Text that does not close everything is taken whole. -/
theorem Leads.takeClosed_append
    {nesting after : Nesting}
    {front : Text}
    (leads : Leads nesting front after)
    (rest : Text) :
    takeClosed nesting (front ++ rest) =
      (front ++ (takeClosed after rest).1, (takeClosed after rest).2) := by
  induction leads with
  | nil => rfl
  | cons notClosed others inductionHypothesis =>
      rw [List.cons_append, takeClosed, notClosed, if_neg Bool.false_ne_true, inductionHypothesis]
      rfl

/-- The text is taken up to the character that closes everything. -/
theorem Leads.takeClosed_concat_append
    {nesting after : Nesting}
    {front : Text}
    {c : Char}
    (leads : Leads nesting front after)
    (closes : after.next c = .code 0)
    (rest : Text) :
    takeClosed nesting (front ++ [c] ++ rest) = (front ++ [c], rest) := by
  have last : takeClosed after ([c] ++ rest) = ([c], rest) := by
    rw [List.singleton_append, takeClosed, closes]
    rfl
  rw [List.append_assoc, leads.takeClosed_append, last]

end Nesting

open Nesting (Leads)

theorem IsQuotable.leads {inside : Text} (quotable : IsQuotable inside) (depth : Nat) :
    Leads (.literal '"' depth) inside (.literal '"' depth) := by
  induction quotable with
  | nil => exact .nil _
  | @char c rest notQuote notBackslash others inductionHypothesis =>
      have next_eq : Nesting.next (.literal '"' depth) c = .literal '"' depth := by
        simp [Nesting.next, notQuote, notBackslash]
      exact (Leads.single next_eq rfl).append inductionHypothesis
  | escape c others inductionHypothesis =>
      exact ((Leads.single rfl rfl).append (.single rfl rfl)).append inductionHypothesis

theorem leads_raw {inside : Text} (noQuote : '`' ∉ inside) (depth : Nat) :
    Leads (.literal '`' depth) inside (.literal '`' depth) := by
  induction inside with
  | nil => exact .nil _
  | cons c rest inductionHypothesis =>
      rw [List.mem_cons, not_or] at noQuote
      have next_eq : Nesting.next (.literal '`' depth) c = .literal '`' depth := by
        simp [Nesting.next, Ne.symm noQuote.1]
      exact (Leads.single next_eq rfl).append (inductionHypothesis noQuote.2)

/-- A literal is open until its last quote. -/
theorem IsLiteral.exists_leads {literal : Text} (isLiteral : IsLiteral literal) (depth : Nat) :
    ∃ c front quote, opensClosed c = true ∧ literal = c :: front ++ [quote] ∧
      Leads (.code depth) (c :: front) (.literal quote depth) ∧
      Nesting.next (.literal quote depth) quote = .code depth := by
  cases isLiteral with
  | @quoted inside quotable =>
      exact ⟨'"', inside, '"', rfl, rfl, (Leads.single rfl rfl).append (quotable.leads depth), rfl⟩
  | @raw inside noQuote =>
      exact ⟨'`', inside, '`', rfl, rfl, (Leads.single rfl rfl).append (leads_raw noQuote depth), rfl⟩

/-- Balanced text inside of parentheses leaves them open. -/
theorem IsBalanced.leads {text : Text} (balanced : IsBalanced text) (depth : Nat) :
    Leads (.code (depth + 1)) text (.code (depth + 1)) := by
  have opened (depth : Nat) : Nesting.isClosed (.code (depth + 1)) = false := by
    simp [Nesting.isClosed]
  induction balanced generalizing depth with
  | nil => exact .nil _
  | @char c rest other others inductionHypothesis =>
      simp only [List.mem_cons, List.not_mem_nil, or_false, not_or] at other
      have next_eq : Nesting.next (.code (depth + 1)) c = .code (depth + 1) := by
        simp [Nesting.next, other]
      exact (Leads.single next_eq (opened depth)).append (inductionHypothesis depth)
  | literal isLiteral others inductionHypothesis =>
      obtain ⟨c, front, quote, _, rfl, leads, closes⟩ := isLiteral.exists_leads (depth + 1)
      exact (leads.append (.single closes (opened depth))).append (inductionHypothesis depth)
  | @paren inside rest balanced others insideHypothesis restHypothesis =>
      have opens : Leads (.code (depth + 1)) ['('] (.code (depth + 2)) :=
        .single rfl (opened (depth + 1))
      have closes : Leads (.code (depth + 2)) [')'] (.code (depth + 1)) := .single rfl (opened depth)
      exact opens.append ((insideHypothesis (depth + 1)).append
        (closes.append (restHypothesis depth)))

/-! ## Complete arguments -/

/-- An argument with the white space in front of it is complete: there is none, or it is an operand,
a literal, or balanced text in parentheses. -/
inductive IsComplete : Text → Prop where
  /-- There is no argument. -/
  | none : IsComplete []
  /-- The argument is an operand. -/
  | operand
      {spacing tail : Text}
      {c : Char}
      (blank : ∀ d ∈ spacing, Character.isSpace d = true)
      (spaced : spacing ≠ [])
      (opens : opensOperand c = true)
      (inside : ∀ d ∈ tail, inOperand d = true) :
      IsComplete (spacing ++ c :: tail)
  /-- The argument is a literal. -/
  | literal
      {spacing literal : Text}
      (blank : ∀ d ∈ spacing, Character.isSpace d = true)
      (spaced : spacing ≠ [])
      (isLiteral : IsLiteral literal) :
      IsComplete (spacing ++ literal)
  /-- The argument stands in parentheses. -/
  | paren
      {spacing inside : Text}
      (blank : ∀ d ∈ spacing, Character.isSpace d = true)
      (spaced : spacing ≠ [])
      (balanced : IsBalanced inside) :
      IsComplete (spacing ++ '(' :: (inside ++ [')']))

theorem opensClosed_eq_false_of_opensOperand {c : Char} (opens : opensOperand c = true) :
    opensClosed c = false := by
  rw [Bool.eq_false_iff]
  intro closed
  simp only [opensClosed, Bool.or_eq_true, decide_eq_true_eq] at closed
  rcases closed with (rfl | rfl) | rfl <;> exact absurd opens (by decide +kernel)

/-- A closing parenthesis starts no argument. -/
theorem split_eq_nil
    {rest : Text}
    (ends : ∀ c, rest.trimStart.head? = some c → c = ')') :
    split rest = ([], rest) := by
  have nothing : splitTight rest.trimStart = none := by
    cases trimmed : rest.trimStart with
    | nil => rfl
    | cons c tail =>
        obtain rfl := ends c (by rw [trimmed]; rfl)
        have notOperand : opensOperand ')' = false := by decide +kernel
        simp [splitTight, opensClosed, notOperand]
  rw [split, nothing]
  split <;> rfl

/-- Neither white space nor a closing parenthesis goes on with an operand. -/
theorem inOperand_head?_eq_false
    {rest : Text}
    (ends : ∀ c, rest.trimStart.head? = some c → c = ')')
    {c : Char}
    (first : rest.head? = some c) :
    inOperand c = false := by
  obtain ⟨tail, rfl⟩ := List.head?_eq_some_iff.mp first
  cases space : Character.isSpace c with
  | true => simp [inOperand, space]
  | false =>
      rw [Text.trimStart_cons_of_not_space space] at ends
      simp [inOperand, ends c rfl]

/-- A complete argument is cut off in front of a closing parenthesis or the end of the text. -/
theorem IsComplete.split_append
    {argument rest : Text}
    (complete : IsComplete argument)
    (ends : ∀ c, rest.trimStart.head? = some c → c = ')') :
    split (argument ++ rest) = (argument, rest) := by
  cases complete with
  | none => exact split_eq_nil ends
  | operand blank spaced opens inside =>
      exact split_of_tight blank spaced (.operand (opensClosed_eq_false_of_opensOperand opens) opens
        inside fun d first => inOperand_head?_eq_false ends first)
  | literal blank spaced isLiteral =>
      obtain ⟨c, front, quote, opens, rfl, leads, closes⟩ := isLiteral.exists_leads 0
      exact split_of_tight blank spaced (.closed opens (leads.takeClosed_concat_append closes rest))
  | @paren spacing inside blank spaced balanced =>
      have leads : Leads (.code 0) ('(' :: inside) (.code 1) :=
        (Leads.single rfl rfl).append (balanced.leads 0)
      exact split_of_tight blank spaced (.closed rfl (leads.takeClosed_concat_append rfl rest))

end Argument
end OutputThreading
