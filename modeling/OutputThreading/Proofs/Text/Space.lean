import Mathlib.Data.List.TakeWhile
import OutputThreading.Text.Basic

/-!
# White space at the ends of a text

Leading white space stops at the first other character, whatever follows it.  So it can be read off
the part of a text in front of such a character (`Text.trimStart_append_cons`), and a text that is
put together from white space and something else comes apart again.  Trailing white space is leading
white space of the reversed text, and a text is trimmed alike with more white space around it
(`Text.trim_append_append`).
-/

namespace OutputThreading
namespace Text

/-! ## Taking characters of one class -/

section Classes

variable {class? : Char → Bool} {c : Char}

/-- Taking characters of a class stops at a character of another one. -/
theorem takeWhile_append_cons (stops : class? c = false) (front rest : Text) :
    (front ++ c :: rest).takeWhile class? = front.takeWhile class? := by
  induction front with
  | nil => simp [stops]
  | cons d front inductionHypothesis =>
      rw [List.cons_append, List.takeWhile_cons, List.takeWhile_cons, inductionHypothesis]

theorem dropWhile_append_cons (stops : class? c = false) (front rest : Text) :
    (front ++ c :: rest).dropWhile class? = front.dropWhile class? ++ c :: rest := by
  induction front with
  | nil => simp [stops]
  | cons d front inductionHypothesis =>
      rw [List.cons_append, List.dropWhile_cons, List.dropWhile_cons, inductionHypothesis]
      split <;> rfl

end Classes

/-! ## Leading white space -/

theorem isSpace_of_mem_leadingSpace {text : Text} {c : Char} (member : c ∈ text.leadingSpace) :
    Character.isSpace c = true := by
  have all : text.leadingSpace.all Character.isSpace = true := List.all_takeWhile
  exact List.all_eq_true.mp all c member

theorem leadingSpace_cons_of_not_space
    {c : Char}
    (solid : Character.isSpace c = false)
    (rest : Text) :
    leadingSpace (c :: rest) = [] := by
  simp [leadingSpace, solid]

theorem trimStart_cons_of_not_space
    {c : Char}
    (solid : Character.isSpace c = false)
    (rest : Text) :
    trimStart (c :: rest) = c :: rest := by
  simp [trimStart, solid]

/-- What stands behind a character that is no white space has no say in the leading white space. -/
theorem leadingSpace_append_cons
    {c : Char}
    (solid : Character.isSpace c = false)
    (front rest : Text) :
    leadingSpace (front ++ c :: rest) = leadingSpace front :=
  takeWhile_append_cons solid front rest

theorem trimStart_append_cons
    {c : Char}
    (solid : Character.isSpace c = false)
    (front rest : Text) :
    trimStart (front ++ c :: rest) = trimStart front ++ c :: rest :=
  dropWhile_append_cons solid front rest

theorem leadingSpace_append
    {spacing : Text}
    (blank : ∀ c ∈ spacing, Character.isSpace c = true)
    (rest : Text) :
    leadingSpace (spacing ++ rest) = spacing ++ leadingSpace rest :=
  List.takeWhile_append_of_pos blank

theorem trimStart_append
    {spacing : Text}
    (blank : ∀ c ∈ spacing, Character.isSpace c = true)
    (rest : Text) :
    trimStart (spacing ++ rest) = trimStart rest :=
  List.dropWhile_append_of_pos blank

/-- White space in front of something else is all of the leading white space. -/
theorem leadingSpace_append_solid
    {spacing : Text}
    {c : Char}
    (blank : ∀ d ∈ spacing, Character.isSpace d = true)
    (solid : Character.isSpace c = false)
    (rest : Text) :
    leadingSpace (spacing ++ c :: rest) = spacing := by
  rw [leadingSpace_append blank, leadingSpace_cons_of_not_space solid, List.append_nil]

theorem trimStart_append_solid
    {spacing : Text}
    {c : Char}
    (blank : ∀ d ∈ spacing, Character.isSpace d = true)
    (solid : Character.isSpace c = false)
    (rest : Text) :
    trimStart (spacing ++ c :: rest) = c :: rest := by
  rw [trimStart_append blank, trimStart_cons_of_not_space solid]

/-- The trimmed text is the end of the text. -/
theorem trimStart_suffix (text : Text) : text.trimStart <:+ text :=
  List.dropWhile_suffix Character.isSpace

/-! ## White space at the end -/

theorem trimEnd_append_cons
    {c : Char}
    (solid : Character.isSpace c = false)
    (front rest : Text) :
    trimEnd (front ++ c :: rest) = front ++ c :: trimEnd rest := by
  unfold trimEnd
  rw [List.reverse_append, List.reverse_cons, List.append_assoc, List.singleton_append,
    dropWhile_append_cons solid, List.reverse_append, List.reverse_cons, List.reverse_reverse,
    List.append_assoc, List.singleton_append]

theorem trimEnd_append
    {spacing : Text}
    (blank : ∀ c ∈ spacing, Character.isSpace c = true)
    (front : Text) :
    trimEnd (front ++ spacing) = trimEnd front := by
  unfold trimEnd
  rw [List.reverse_append, List.dropWhile_append_of_pos]
  exact fun c member => blank c (List.mem_reverse.mp member)

theorem isSpace_of_mem_trailingSpace {text : Text} {c : Char} (member : c ∈ text.trailingSpace) :
    Character.isSpace c = true := by
  rw [trailingSpace, List.mem_reverse] at member
  have all : (text.reverse.takeWhile Character.isSpace).all Character.isSpace = true :=
    List.all_takeWhile
  exact List.all_eq_true.mp all c member

theorem trimEnd_trimEnd (text : Text) : text.trimEnd.trimEnd = text.trimEnd := by
  conv => rhs; rw [← text.trimEnd_append_trailingSpace]
  exact (trimEnd_append (fun c => isSpace_of_mem_trailingSpace) text.trimEnd).symm

theorem leadingSpace_append_trim_append (text : Text) :
    text.leadingSpace ++ (text.trim ++ text.trimStart.trailingSpace) = text := by
  rw [trim, trimEnd_append_trailingSpace, leadingSpace_append_trimStart]

/-- A trimmed text is empty or starts with a character that is no white space. -/
theorem trimStart_eq_nil_or_cons (text : Text) :
    text.trimStart = [] ∨ ∃ c rest, text.trimStart = c :: rest ∧ Character.isSpace c = false := by
  cases trimmed : text.trimStart with
  | nil => exact .inl rfl
  | cons c rest =>
      right
      have first := List.head?_dropWhile_not Character.isSpace text
      rw [← trimStart, trimmed] at first
      exact ⟨c, rest, rfl, first⟩

theorem trimStart_trim (text : Text) : text.trim.trimStart = text.trim := by
  rw [trim]
  rcases text.trimStart_eq_nil_or_cons with empty | ⟨c, rest, trimmed, solid⟩
  · rw [empty]
    rfl
  · have first : trimEnd (c :: rest) = c :: trimEnd rest := trimEnd_append_cons solid [] rest
    rw [trimmed, first, trimStart_cons_of_not_space solid]

theorem trimEnd_trim (text : Text) : text.trim.trimEnd = text.trim :=
  trimEnd_trimEnd text.trimStart

theorem trim_eq_nil_iff (text : Text) : text.trim = [] ↔ text.isBlank = true := by
  rw [isBlank, List.all_eq_true]
  constructor
  · intro empty c member
    rw [← text.leadingSpace_append_trim_append, empty, List.nil_append, List.mem_append] at member
    rcases member with member | member
    · exact isSpace_of_mem_leadingSpace member
    · exact isSpace_of_mem_trailingSpace member
  · intro blank
    have empty : text.trimStart = [] := List.dropWhile_eq_nil_iff.mpr blank
    rw [trim, empty]
    rfl

/-- White space around a text is trimmed away. -/
theorem trim_append_append
    {before behind : Text}
    (blankBefore : ∀ c ∈ before, Character.isSpace c = true)
    (blankBehind : ∀ c ∈ behind, Character.isSpace c = true)
    (text : Text) :
    trim (before ++ (text ++ behind)) = text.trim := by
  rw [trim, trimStart_append blankBefore, trim]
  rcases text.trimStart_eq_nil_or_cons with empty | ⟨c, rest, trimmed, solid⟩
  · have blank : ∀ c ∈ text ++ behind, Character.isSpace c = true := by
      rw [List.forall_mem_append]
      exact ⟨List.dropWhile_eq_nil_iff.mp empty, blankBehind⟩
    have both : trimStart (text ++ behind) = [] := List.dropWhile_eq_nil_iff.mpr blank
    rw [both, empty]
  · have parts : text = text.leadingSpace ++ c :: rest := by
      rw [← trimmed, leadingSpace_append_trimStart]
    have whole : trimStart (text ++ behind) = c :: rest ++ behind := by
      conv => lhs; rw [parts, List.append_assoc, List.cons_append]
      exact trimStart_append_solid (fun d => isSpace_of_mem_leadingSpace) solid (rest ++ behind)
    rw [whole, trimEnd_append blankBehind, trimmed]

theorem trimEnd_concat {c : Char} (solid : Character.isSpace c = false) (front : Text) :
    trimEnd (front ++ [c]) = front ++ [c] := by
  unfold trimEnd
  rw [List.reverse_concat, List.dropWhile_cons_of_neg (by simp [solid]), List.reverse_cons,
    List.reverse_reverse]

theorem trailingSpace_concat {c : Char} (solid : Character.isSpace c = false) (front : Text) :
    trailingSpace (front ++ [c]) = [] := by
  unfold trailingSpace
  rw [List.reverse_concat, List.takeWhile_cons_of_neg (by simp [solid])]
  rfl

theorem trimEnd_ne_nil_of_mem
    {c : Char}
    (solid : Character.isSpace c = false)
    {text : Text}
    (member : c ∈ text) :
    text.trimEnd ≠ [] := by
  unfold trimEnd
  rw [ne_eq, List.reverse_eq_nil_iff, List.dropWhile_eq_nil_iff]
  intro blank
  have space := blank c (List.mem_reverse.mpr member)
  rw [solid] at space
  cases space

theorem trimEnd_prefix (text : Text) : text.trimEnd <+: text :=
  ⟨text.trailingSpace, text.trimEnd_append_trailingSpace⟩

/-! ## Blank texts -/

/-- White space is no part of a comment or a statement. -/
theorem notMem_of_isSpace
    {text : Text}
    (blank : ∀ c ∈ text, Character.isSpace c = true)
    {c : Char}
    (solid : Character.isSpace c = false) :
    c ∉ text := by
  intro member
  rw [blank c member] at solid
  cases solid

theorem brace_notMem_of_isSpace
    {text : Text}
    (blank : ∀ c ∈ text, Character.isSpace c = true) :
    '{' ∉ text ∧ '}' ∉ text :=
  ⟨notMem_of_isSpace blank (by decide), notMem_of_isSpace blank (by decide)⟩

theorem notMem_of_isBlank
    {text : Text}
    (blank : text.isBlank = true)
    {c : Char}
    (solid : Character.isSpace c = false) :
    c ∉ text :=
  notMem_of_isSpace (List.all_eq_true.mp blank) solid

end Text
end OutputThreading
