import OutputThreading.Proofs.NameSupply
import OutputThreading.Proofs.Text.Occurrence

/-!
# Text without delimiters

Braces and line breaks decide where statements start and end.  Text without them is flat: every
generated name is, and a pattern of delimiters cannot reach over it (`Text.IsFlat.infix_iff`).
-/

namespace OutputThreading

/-- The character takes part in delimiting statements. -/
def Character.delimits (c : Char) : Bool :=
  c = '{' || c = '}' || c = '\n'

theorem Character.delimits_eq_false_of_isNamePart
    {c : Char}
    (part : Character.isNamePart c = true) :
    Character.delimits c = false := by
  rw [Bool.eq_false_iff]
  intro delimiter
  simp only [Character.delimits, Bool.or_eq_true, decide_eq_true_eq] at delimiter
  rcases delimiter with (rfl | rfl) | rfl <;> exact absurd part (by decide +kernel)

/-- Delimiters end words. -/
theorem Character.isWord_eq_false_of_delimits
    {c : Char}
    (delimiter : Character.delimits c = true) :
    Character.isWord c = false := by
  simp only [Character.delimits, Bool.or_eq_true, decide_eq_true_eq] at delimiter
  rcases delimiter with (rfl | rfl) | rfl <;> decide +kernel

theorem Character.delimits_eq_false_of_isWord {c : Char} (word : Character.isWord c = true) :
    Character.delimits c = false := by
  rw [Bool.eq_false_iff]
  intro delimiter
  exact Bool.false_ne_true ((isWord_eq_false_of_delimits delimiter).symm.trans word)

namespace Text

/-- The text holds no delimiter. -/
def IsFlat (text : Text) : Prop :=
  ∀ c ∈ text, Character.delimits c = false

/-- The text is a pattern of delimiters. -/
def IsDelimiter (pattern : Text) : Prop :=
  pattern ≠ [] ∧ ∀ c ∈ pattern, Character.delimits c = true

instance (text : Text) : Decidable text.IsFlat :=
  List.decidableBAll _ text

instance (pattern : Text) : Decidable pattern.IsDelimiter :=
  have := List.decidableBAll (Character.delimits · = true) pattern
  instDecidableAnd

theorem IsName.isFlat {name : Text} (isName : name.IsName) : name.IsFlat :=
  fun c member => Character.delimits_eq_false_of_isNamePart (isName c member)

theorem isFlat_append_iff {left right : Text} :
    IsFlat (left ++ right) ↔ left.IsFlat ∧ right.IsFlat := by
  simp only [IsFlat, List.mem_append]
  constructor
  · intro flat
    exact ⟨fun c member => flat c (.inl member), fun c member => flat c (.inr member)⟩
  · rintro ⟨first, second⟩ c (member | member)
    · exact first c member
    · exact second c member

theorem isFlat_ofNat (number : Nat) : (ofNat number).IsFlat :=
  (isName_of_digits fun _ => isDigit_of_mem_ofNat).isFlat

theorem IsFlat.of_infix {text part : Text} (flat : text.IsFlat) (inside : part <:+: text) :
    part.IsFlat :=
  fun c member => flat c (inside.subset member)

theorem IsFlat.notMem
    {text : Text}
    (flat : text.IsFlat)
    {c : Char}
    (delimiter : Character.delimits c = true) :
    c ∉ text := by
  intro member
  rw [flat c member] at delimiter
  cases delimiter

/-- A text is flat exactly if no pattern of delimiters occurs in it. -/
theorem isFlat_iff_forall_not_infix {text : Text} :
    text.IsFlat ↔ ∀ pattern : Text, pattern.IsDelimiter → ¬pattern <:+: text := by
  constructor
  · rintro flat pattern ⟨nonempty, delimiters⟩ inside
    obtain ⟨c, rest, rfl⟩ := List.exists_cons_of_ne_nil nonempty
    exact flat.notMem (delimiters c List.mem_cons_self) (inside.subset List.mem_cons_self)
  · intro absent c member
    rw [Bool.eq_false_iff]
    intro delimiter
    obtain ⟨before, behind, rfl⟩ := List.append_of_mem member
    exact absent [c] ⟨List.cons_ne_nil c [], by simpa using delimiter⟩ ⟨before, behind, by simp⟩

/-- A pattern of delimiters does not reach over flat text. -/
theorem IsFlat.infix_iff
    {middle pattern : Text}
    (flat : middle.IsFlat)
    (between : middle ≠ [])
    (delimiter : pattern.IsDelimiter)
    (front rest : Text) :
    pattern <:+: front ++ (middle ++ rest) ↔ pattern <:+: front ∨ pattern <:+: rest := by
  refine infix_append_append_iff delimiter.1 (fun c member inside => ?_) between front rest
  exact flat.notMem (delimiter.2 c inside) member

end Text
end OutputThreading
