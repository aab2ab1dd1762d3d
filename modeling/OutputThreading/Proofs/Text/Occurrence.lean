import Mathlib.Data.List.Infix
import OutputThreading.Text.Basic

/-!
# Where a pattern occurs

Breaking a text finds the first occurrence of a pattern: `Text.breakOn?_eq_some_iff` says this
without the scan, through infixes.  An occurrence cannot reach over characters that the pattern does
not hold (`Text.infix_append_append_iff`), so it can be looked for part by part.
-/

namespace OutputThreading
namespace Text

/-! ## Leading patterns -/

theorem after?_eq_none_iff {text pattern : Text} :
    text.after? pattern = none ↔ ¬pattern <+: text := by
  rw [Option.eq_none_iff_forall_ne_some]
  constructor
  · rintro absent ⟨rest, equal⟩
    exact absent rest (after?_eq_some_iff.mpr equal.symm)
  · intro absent rest found
    exact absent ⟨rest, (eq_append_of_after? found).symm⟩

/-- A text whose first character differs from that of the pattern does not start with it. -/
theorem after?_cons_of_ne
    {c p : Char}
    (different : c ≠ p)
    (text pattern : Text) :
    after? (c :: text) (p :: pattern) = none := by
  simp [after?, different]

@[simp] theorem after?_cons_self (p : Char) (text pattern : Text) :
    after? (p :: text) (p :: pattern) = text.after? pattern := by
  simp [after?]

/-! ## First occurrences -/

theorem breakOn?_eq_none_iff {text pattern : Text} :
    text.breakOn? pattern = none ↔ ¬pattern <:+: text := by
  induction text with
  | nil => simp [breakOn?, after?_eq_none_iff]
  | cons c tail inductionHypothesis =>
      rw [breakOn?, List.infix_cons_iff, not_or]
      split
      next rest taken =>
        have leading : pattern <+: c :: tail := ⟨rest, (eq_append_of_after? taken).symm⟩
        simp [leading]
      next notTaken =>
        rw [Option.map_eq_none_iff, inductionHypothesis, ← after?_eq_none_iff]
        simp [notTaken]

theorem includes_eq_true_iff {text pattern : Text} :
    text.includes pattern = true ↔ pattern <:+: text := by
  rw [includes, Option.isSome_iff_ne_none, ne_eq, breakOn?_eq_none_iff, not_not]

theorem append_dropLast_prefix (front pattern rest : Text) :
    front ++ pattern.dropLast <+: front ++ pattern ++ rest := by
  obtain ⟨last, parts⟩ := List.dropLast_prefix pattern
  refine ⟨last ++ rest, ?_⟩
  conv => rhs; rw [← parts]
  simp

/-- What stands in front of the first occurrence holds no occurrence, not even one that reaches
into the first one. -/
theorem not_infix_of_breakOn?
    {pattern text front rest : Text}
    (nonempty : pattern ≠ [])
    (found : text.breakOn? pattern = some (front, rest)) :
    ¬pattern <:+: front ++ pattern.dropLast := by
  induction text generalizing front with
  | nil =>
      simp only [breakOn?, Option.map_eq_some_iff] at found
      obtain ⟨_, taken, _⟩ := found
      exact absurd (eq_append_of_after? taken) (by simp [nonempty])
  | cons c tail inductionHypothesis =>
      have whole := eq_append_of_breakOn? found
      rw [breakOn?] at found
      split at found
      next =>
        simp only [Option.some.injEq, Prod.mk.injEq] at found
        obtain ⟨rfl, rfl⟩ := found
        intro inside
        have shorter := inside.length_le
        have positive := List.length_pos_iff.mpr nonempty
        simp only [List.nil_append, List.length_dropLast] at shorter
        omega
      next notTaken =>
        simp only [Option.map_eq_some_iff, Prod.mk.injEq] at found
        obtain ⟨⟨tailFront, tailRest⟩, tailFound, rfl, rfl⟩ := found
        rw [List.cons_append, List.infix_cons_iff, not_or]
        refine ⟨fun leading => ?_, inductionHypothesis tailFound⟩
        -- an occurrence at the very start would have been taken
        refine after?_eq_none_iff.mp notTaken (leading.trans ?_)
        rw [whole]
        exact append_dropLast_prefix (c :: tailFront) pattern tailRest

theorem breakOn?_append
    {pattern front : Text}
    (nonempty : pattern ≠ [])
    (absent : ¬pattern <:+: front ++ pattern.dropLast)
    (rest : Text) :
    (front ++ pattern ++ rest).breakOn? pattern = some (front, rest) := by
  induction front with
  | nil =>
      obtain ⟨p, tail, rfl⟩ := List.exists_cons_of_ne_nil nonempty
      have taken := after?_append (p :: tail) rest
      rw [List.cons_append] at taken
      rw [List.nil_append, List.cons_append, breakOn?, taken]
  | cons c front inductionHypothesis =>
      rw [List.cons_append, List.infix_cons_iff, not_or] at absent
      have notTaken : after? (c :: (front ++ pattern ++ rest)) pattern = none := by
        rw [after?_eq_none_iff]
        intro leading
        refine absent.1 (List.prefix_of_prefix_length_le leading ?_ ?_)
        · exact append_dropLast_prefix (c :: front) pattern rest
        · have positive := List.length_pos_iff.mpr nonempty
          simp only [List.length_cons, List.length_append, List.length_dropLast]
          omega
      rw [List.cons_append, List.cons_append, breakOn?, notTaken, inductionHypothesis absent.2]
      rfl

/-- A text breaks where the pattern occurs first. -/
theorem breakOn?_eq_some_iff
    {pattern text front rest : Text}
    (nonempty : pattern ≠ []) :
    text.breakOn? pattern = some (front, rest) ↔
      text = front ++ pattern ++ rest ∧ ¬pattern <:+: front ++ pattern.dropLast := by
  constructor
  · intro found
    exact ⟨eq_append_of_breakOn? found, not_infix_of_breakOn? nonempty found⟩
  · rintro ⟨rfl, absent⟩
    exact breakOn?_append nonempty absent rest

/-- A text breaks at the first occurrence of a character. -/
theorem breakOn?_singleton_eq_some_iff {c : Char} {text front rest : Text} :
    text.breakOn? [c] = some (front, rest) ↔ text = front ++ c :: rest ∧ c ∉ front := by
  rw [breakOn?_eq_some_iff (List.cons_ne_nil c [])]
  simp [List.singleton_infix_iff]

/-- Two ways to cut a text at the first occurrence of a character are the same. -/
theorem eq_and_eq_of_append_cons_eq
    {c : Char}
    {front rest otherFront otherRest : Text}
    (first : c ∉ front)
    (otherFirst : c ∉ otherFront)
    (same : front ++ c :: rest = otherFront ++ c :: otherRest) :
    front = otherFront ∧ rest = otherRest := by
  have cut := breakOn?_singleton_eq_some_iff.mpr ⟨same, otherFirst⟩
  rw [breakOn?_singleton_eq_some_iff.mpr ⟨rfl, first⟩] at cut
  exact Prod.mk.inj (Option.some.inj cut)

/-- A character that the front does not hold stands behind it. -/
theorem exists_of_append_eq_append_cons
    {c : Char}
    {front rest before behind : Text}
    (absent : c ∉ front)
    (same : front ++ rest = before ++ c :: behind) :
    ∃ between, before = front ++ between ∧ rest = between ++ c :: behind := by
  rcases List.append_eq_append_iff.mp same with
    ⟨between, before_eq, rest_eq⟩ | ⟨excess, rfl, behind_eq⟩
  · exact ⟨between, before_eq, rest_eq⟩
  · cases excess with
    | nil => exact ⟨[], by simp, behind_eq.symm⟩
    | cons d excess =>
        obtain ⟨rfl, _⟩ := List.cons.inj behind_eq
        exact absurd (by simp) absent

/-! ## Patterns in parts of a text -/

/-- A pattern does not reach over a character that it does not hold. -/
theorem infix_append_cons_iff
    {pattern : Text}
    {c : Char}
    (foreign : c ∉ pattern)
    (front rest : Text) :
    pattern <:+: front ++ c :: rest ↔ pattern <:+: front ∨ pattern <:+: rest := by
  constructor
  · rintro ⟨before, behind, equal⟩
    rcases List.append_eq_append_iff.mp equal with ⟨short, parts, _⟩ | ⟨long, parts, excess⟩
    · left
      exact ⟨before, short, parts.symm⟩
    · cases long with
      | nil =>
          left
          exact ⟨before, [], by simpa using parts⟩
      | cons d long =>
          -- the character stands in front of the pattern, which does not hold it
          right
          obtain ⟨rfl, rfl⟩ := List.cons.inj excess
          rcases List.append_eq_append_iff.mp parts with ⟨inner, _, whole⟩ | ⟨outer, _, tail⟩
          · exact absurd (by simp [whole]) foreign
          · cases outer with
            | nil =>
                have whole : pattern = c :: long := tail.symm
                exact absurd (by simp [whole]) foreign
            | cons e outer =>
                obtain ⟨rfl, rfl⟩ := List.cons.inj tail
                exact ⟨outer, behind, by simp⟩
  · rintro (inside | inside)
    · exact List.infix_append_of_infix_left inside
    · exact List.infix_append_of_infix_right (List.infix_cons inside)

theorem prefix_of_prefix_append_cons
    {pattern : Text}
    {c : Char}
    (foreign : c ∉ pattern)
    {front rest : Text}
    (leading : pattern <+: front ++ c :: rest) :
    pattern <+: front := by
  rcases List.prefix_or_prefix_of_prefix leading (List.prefix_append front (c :: rest)) with
    short | ⟨excess, rfl⟩
  · exact short
  · rw [List.prefix_append_right_inj] at leading
    cases excess with
    | nil => simp
    | cons d excess =>
        obtain ⟨more, equal⟩ := leading
        obtain ⟨rfl, _⟩ := List.cons.inj equal
        exact absurd (by simp) foreign

/-- Nor does it reach over a part of the text that shares no character with it. -/
theorem infix_append_append_iff
    {pattern middle : Text}
    (nonempty : pattern ≠ [])
    (apart : ∀ c ∈ middle, c ∉ pattern)
    (between : middle ≠ [])
    (front rest : Text) :
    pattern <:+: front ++ (middle ++ rest) ↔ pattern <:+: front ∨ pattern <:+: rest := by
  induction middle generalizing front with
  | nil => exact absurd rfl between
  | cons c middle inductionHypothesis =>
      rw [List.cons_append, infix_append_cons_iff (apart c List.mem_cons_self)]
      cases middle with
      | nil => rfl
      | cons d middle =>
          have others := inductionHypothesis
            (fun e member => apart e (List.mem_cons_of_mem c member)) (List.cons_ne_nil d middle) []
          rw [List.nil_append, List.infix_nil] at others
          rw [others]
          simp [nonempty]

/-- A pattern that ends in a character that does not follow ends in front of what follows. -/
theorem prefix_of_prefix_append
    {pattern front rest : Text}
    {last : Char}
    (ends : pattern.getLast? = some last)
    (foreign : last ∉ rest)
    (leading : pattern <+: front ++ rest) :
    pattern <+: front := by
  rcases List.prefix_or_prefix_of_prefix leading (List.prefix_append front rest) with
    short | ⟨excess, rfl⟩
  · exact short
  · rw [List.prefix_append_right_inj] at leading
    cases excess with
    | nil => simp
    | cons c excess =>
        rw [List.getLast?_append_of_ne_nil front (List.cons_ne_nil c excess)] at ends
        exact absurd (leading.subset (List.mem_of_getLast? ends)) foreign

end Text
end OutputThreading
