import Mathlib.Data.List.Basic
import Mathlib.Logic.Equiv.Basic
import OutputThreading.Call.Argument
import OutputThreading.Proofs.NameSupply

/-!
# Exchanging inert characters

The passes give a meaning to white space, to the characters of words and operands and to a few marks.
All other characters are inert, those of the comment marks among them: exchanging inert characters
for each other and cutting a text come to the same in either order.
-/

namespace OutputThreading
namespace Character

/-- The marks that template code is made of. -/
def marks : List Char :=
  ['"', '$', '(', ')', '-', '.', ':', '=', '\\', '`', '{', '}']

/-- The character is no white space, stands in no word and no operand, and is no mark of template
code. -/
def isInert (c : Char) : Bool :=
  !(isSpace c || isWord c || isAlphanumeric c || marks.contains c)

/-- The character stands in generated code: it is a letter or a digit, white space or a mark. -/
def isCode (c : Char) : Bool :=
  c.isAlphanum || c = '_' || isSpace c || marks.contains c

theorem isInert_eq_false_of_isCode {c : Char} (code : isCode c = true) : isInert c = false := by
  simp only [isCode, Bool.or_eq_true, decide_eq_true_eq] at code
  rw [isInert, Bool.not_eq_false', Bool.or_eq_true, Bool.or_eq_true, Bool.or_eq_true]
  rcases code with ((alphanumeric | rfl) | space) | mark
  · exact .inl (.inl (.inr (isWord_of_isAlphanum alphanumeric)))
  · exact .inl (.inl (.inr rfl))
  · exact .inl (.inl (.inl space))
  · exact .inr mark

theorem isInert_eq_false_of_isNamePart {c : Char} (part : isNamePart c = true) :
    isInert c = false := by
  simp only [isNamePart, Bool.or_eq_true, decide_eq_true_eq] at part
  rcases part with (rfl | rfl) | alphanumeric
  · exact isInert_eq_false_of_isCode rfl
  · exact isInert_eq_false_of_isCode rfl
  · simp [isInert, alphanumeric]

end Character

/-- A permutation of the characters that moves inert characters only. -/
structure Relabeling where
  /-- The permutation of the characters. -/
  exchange : Equiv.Perm Char
  /-- All other characters stay where they are. -/
  eq_self : ∀ {c : Char}, Character.isInert c = false → exchange c = c

namespace Relabeling

instance : CoeFun Relabeling fun _ => Char → Char :=
  ⟨fun relabeling => relabeling.exchange⟩

/-- Two inert characters take each other's place. -/
def swap
    (first second : Char)
    (firstInert : Character.isInert first = true)
    (secondInert : Character.isInert second = true) : Relabeling where
  exchange := Equiv.swap first second
  eq_self {c} meaning := by
    apply Equiv.swap_apply_of_ne_of_ne
    · rintro rfl
      exact Bool.false_ne_true (meaning.symm.trans firstInert)
    · rintro rfl
      exact Bool.false_ne_true (meaning.symm.trans secondInert)

variable (relabeling : Relabeling)

theorem eq_iff {c meant : Char} (meaning : Character.isInert meant = false) :
    relabeling c = meant ↔ c = meant := by
  rw [← relabeling.exchange.injective.eq_iff (a := c), relabeling.eq_self meaning]

theorem newline_eq_iff {c : Char} : relabeling c = '\n' ↔ c = '\n' :=
  relabeling.eq_iff (Character.isInert_eq_false_of_isCode rfl)

theorem isInert_eq (c : Char) :
    Character.isInert (relabeling c) = Character.isInert c := by
  cases meaning : Character.isInert (relabeling c) with
  | false =>
      have same : c = relabeling c :=
        (relabeling.eq_iff meaning).mp rfl
      rw [same, meaning]
  | true =>
      cases inert : Character.isInert c with
      | true => rfl
      | false =>
          rw [relabeling.eq_self inert, inert] at meaning
          exact meaning.symm

/-- What all inert characters have in common, a character and its label have in common. -/
theorem apply_eq
    {β : Type}
    {f : Char → β}
    (common : β)
    (alike : ∀ c, Character.isInert c = true → f c = common)
    (c : Char) :
    f (relabeling c) = f c := by
  cases inert : Character.isInert c with
  | false => rw [relabeling.eq_self inert]
  | true =>
      have labelInert : Character.isInert (relabeling c) = true := by
        rw [relabeling.isInert_eq, inert]
      rw [alike c inert, alike _ labelInert]

/-- Take the labels back. -/
def symm : Relabeling where
  exchange := relabeling.exchange.symm
  eq_self {c} meaning := by
    rw [Equiv.symm_apply_eq, relabeling.eq_self meaning]

end Relabeling

/-! ## Classes of characters -/

namespace Character

variable {c : Char}

/-- An inert character is no white space, stands in no word and no operand, and is no mark. -/
theorem isInert_iff :
    isInert c = true ↔
      isSpace c = false ∧ isWord c = false ∧ isAlphanumeric c = false ∧ c ∉ marks := by
  simp [isInert, and_assoc]

variable (relabeling : Relabeling) (c : Char)

@[simp] theorem isSpace_relabel : isSpace (relabeling c) = isSpace c :=
  relabeling.apply_eq _ (fun _ inert => (isInert_iff.mp inert).1) c

@[simp] theorem isWord_relabel : isWord (relabeling c) = isWord c :=
  relabeling.apply_eq _ (fun _ inert => (isInert_iff.mp inert).2.1) c

@[simp] theorem isIndent_relabel : isIndent (relabeling c) = isIndent c := by
  refine relabeling.apply_eq false (fun c inert => ?_) c
  rw [Bool.eq_false_iff]
  intro indents
  exact Bool.false_ne_true ((isInert_iff.mp inert).1.symm.trans (isSpace_of_isIndent indents))

end Character

/-! ## Texts -/

namespace Text

/-- The text holds no inert characters. -/
def IsActive (text : Text) : Prop :=
  ∀ c ∈ text, Character.isInert c = false

theorem IsActive.of_isCode {text : Text} (code : text.all Character.isCode = true) :
    text.IsActive :=
  fun c member => Character.isInert_eq_false_of_isCode (List.all_eq_true.mp code c member)

/-- Names hold no inert characters. -/
theorem IsName.isActive {name : Text} (isName : name.IsName) : name.IsActive :=
  fun c member => Character.isInert_eq_false_of_isNamePart (isName c member)

variable (relabeling : Relabeling)

/-- The text with a label in the place of every character. -/
def relabel (text : Text) : Text :=
  text.map relabeling

@[simp] theorem relabel_nil : relabel relabeling [] = [] := rfl

@[simp] theorem relabel_cons (c : Char) (text : Text) :
    relabel relabeling (c :: text) = relabeling c :: text.relabel relabeling := rfl

@[simp] theorem relabel_append (left right : Text) :
    relabel relabeling (left ++ right) = left.relabel relabeling ++ right.relabel relabeling :=
  List.map_append

theorem relabel_append_eq
    {relabeling : Relabeling}
    {left right leftLabel rightLabel : Text}
    (first : left.relabel relabeling = leftLabel)
    (second : right.relabel relabeling = rightLabel) :
    relabel relabeling (left ++ right) = leftLabel ++ rightLabel := by
  rw [relabel_append, first, second]

@[simp] theorem relabel_reverse (text : Text) :
    relabel relabeling text.reverse = (text.relabel relabeling).reverse :=
  List.map_reverse

@[simp] theorem relabel_eq_nil_iff {text : Text} : text.relabel relabeling = [] ↔ text = [] :=
  List.map_eq_nil_iff

theorem relabel_injective : Function.Injective (relabel relabeling) :=
  List.map_injective_iff.mpr relabeling.exchange.injective

@[simp] theorem relabel_inj {first second : Text} :
    first.relabel relabeling = second.relabel relabeling ↔ first = second :=
  (relabel_injective relabeling).eq_iff

@[simp] theorem relabel_symm_relabel (text : Text) :
    relabel relabeling.symm (text.relabel relabeling) = text := by
  simp [relabel, Relabeling.symm, Function.comp_def]

@[simp] theorem relabel_relabel_symm (text : Text) :
    relabel relabeling (text.relabel relabeling.symm) = text := by
  simp [relabel, Relabeling.symm, Function.comp_def]

/-- An active text is its own label. -/
theorem relabel_eq_self
    (text : Text)
    (active : text.IsActive) :
    text.relabel relabeling = text := by
  rw [relabel]
  conv => rhs; rw [← List.map_id text]
  exact List.map_congr_left fun c member => relabeling.eq_self (active c member)

/-- Generated code is its own label. -/
theorem relabel_of_isCode (text : Text) (code : text.all Character.isCode = true) :
    text.relabel relabeling = text :=
  relabel_eq_self relabeling text (.of_isCode code)

theorem relabel_eq_iff
    {relabeling : Relabeling}
    {text fixed : Text}
    (same : fixed.relabel relabeling = fixed) :
    text.relabel relabeling = fixed ↔ text = fixed := by
  conv => lhs; rw [← same]
  exact relabel_inj relabeling

theorem IsName.relabel_eq {name : Text} (isName : name.IsName) : name.relabel relabeling = name :=
  relabel_eq_self relabeling name isName.isActive

theorem mem_relabel_iff
    {c : Char}
    (meaning : Character.isInert c = false)
    {text : Text} :
    c ∈ text.relabel relabeling ↔ c ∈ text := by
  rw [relabel, List.mem_map]
  constructor
  · rintro ⟨d, member, label⟩
    rwa [← (relabeling.eq_iff meaning).mp label]
  · exact fun member => ⟨c, member, relabeling.eq_self meaning⟩

@[simp] theorem newline_mem_relabel_iff {text : Text} :
    '\n' ∈ text.relabel relabeling ↔ '\n' ∈ text :=
  mem_relabel_iff relabeling (Character.isInert_eq_false_of_isCode rfl)

@[simp] theorem breaks_relabel (text : Text) : (text.relabel relabeling).breaks = text.breaks := by
  rw [breaks, breaks, relabel, List.count_eq_countP, List.count_eq_countP, List.countP_map]
  refine List.countP_congr fun c _ => ?_
  simp [relabeling.newline_eq_iff]

/-! ## Cuts -/

/-- The parts of a cut with their labels. -/
def relabelBoth (parts : Text × Text) : Text × Text :=
  (parts.1.relabel relabeling, parts.2.relabel relabeling)

theorem after?_relabel_relabel (text pattern : Text) :
    (text.relabel relabeling).after? (pattern.relabel relabeling) =
      (text.after? pattern).map (relabel relabeling) := by
  induction pattern generalizing text with
  | nil => simp
  | cons p pattern inductionHypothesis =>
      cases text with
      | nil => rfl
      | cons c text =>
          simp only [relabel_cons, after?, relabeling.exchange.injective.eq_iff,
            inductionHypothesis]
          split <;> rfl

/-- An active pattern is taken off as before. -/
theorem after?_relabel
    (pattern : Text)
    (active : pattern.IsActive)
    (text : Text) :
    (text.relabel relabeling).after? pattern = (text.after? pattern).map (relabel relabeling) := by
  rw [← after?_relabel_relabel, relabel_eq_self relabeling pattern active]

theorem breakOn?_relabel
    (pattern : Text)
    (active : pattern.IsActive)
    (text : Text) :
    (text.relabel relabeling).breakOn? pattern =
      (text.breakOn? pattern).map (relabelBoth relabeling) := by
  induction text with
  | nil => cases pattern <;> rfl
  | cons c text inductionHypothesis =>
      have taken := after?_relabel relabeling pattern active (c :: text)
      rw [relabel_cons] at taken ⊢
      rw [breakOn?, breakOn?, taken, inductionHypothesis]
      cases after? (c :: text) pattern with
      | some rest => rfl
      | none => cases breakOn? text pattern <;> rfl

theorem breakOnLast?_relabel
    (pattern : Text)
    (active : pattern.IsActive)
    (text : Text) :
    (text.relabel relabeling).breakOnLast? pattern =
      (text.breakOnLast? pattern).map (relabelBoth relabeling) := by
  induction text with
  | nil => cases pattern <;> rfl
  | cons c text inductionHypothesis =>
      have taken := after?_relabel relabeling pattern active (c :: text)
      rw [relabel_cons] at taken ⊢
      rw [breakOnLast?, breakOnLast?, taken, inductionHypothesis]
      cases breakOnLast? text pattern with
      | some parts => rfl
      | none => cases after? (c :: text) pattern <;> rfl

theorem startsWith_relabel
    (pattern : Text)
    (active : pattern.IsActive)
    (text : Text) :
    (text.relabel relabeling).startsWith pattern = text.startsWith pattern := by
  rw [startsWith, startsWith, after?_relabel relabeling pattern active, Option.isSome_map]

theorem endsWith_relabel
    (pattern : Text)
    (active : pattern.IsActive)
    (text : Text) :
    (text.relabel relabeling).endsWith pattern = text.endsWith pattern := by
  rw [endsWith, endsWith, ← relabel_reverse]
  refine startsWith_relabel relabeling pattern.reverse (fun c member => ?_) _
  exact active c (List.mem_reverse.mp member)

/-! ## Taking characters of a class -/

section Classes

variable {class? : Char → Bool} (same : ∀ c, class? (relabeling c) = class? c) (text : Text)

include same

theorem takeWhile_relabel :
    (text.relabel relabeling).takeWhile class? = relabel relabeling (text.takeWhile class?) := by
  rw [relabel, List.takeWhile_map, relabel]
  simp only [Function.comp_def, same]

theorem dropWhile_relabel :
    (text.relabel relabeling).dropWhile class? = relabel relabeling (text.dropWhile class?) := by
  rw [relabel, List.dropWhile_map, relabel]
  simp only [Function.comp_def, same]

end Classes

variable (text : Text)

@[simp] theorem leadingSpace_relabel :
    (text.relabel relabeling).leadingSpace = text.leadingSpace.relabel relabeling :=
  takeWhile_relabel relabeling (Character.isSpace_relabel relabeling) text

@[simp] theorem trimStart_relabel :
    (text.relabel relabeling).trimStart = text.trimStart.relabel relabeling :=
  dropWhile_relabel relabeling (Character.isSpace_relabel relabeling) text

@[simp] theorem trimEnd_relabel :
    (text.relabel relabeling).trimEnd = text.trimEnd.relabel relabeling := by
  rw [trimEnd, trimEnd, relabel_reverse, ← relabel_reverse relabeling text]
  exact congrArg List.reverse
    (dropWhile_relabel relabeling (Character.isSpace_relabel relabeling) text.reverse)

@[simp] theorem trailingSpace_relabel :
    (text.relabel relabeling).trailingSpace = text.trailingSpace.relabel relabeling := by
  rw [trailingSpace, trailingSpace, relabel_reverse, ← relabel_reverse relabeling text]
  exact congrArg List.reverse
    (takeWhile_relabel relabeling (Character.isSpace_relabel relabeling) text.reverse)

@[simp] theorem trim_relabel : (text.relabel relabeling).trim = text.trim.relabel relabeling := by
  rw [trim, trim, trimStart_relabel, trimEnd_relabel]

@[simp] theorem isBlank_relabel : (text.relabel relabeling).isBlank = text.isBlank := by
  simp [isBlank, relabel, Function.comp_def]

@[simp] theorem indentation_relabel :
    (text.relabel relabeling).indentation = text.indentation.relabel relabeling :=
  takeWhile_relabel relabeling (Character.isIndent_relabel relabeling) text

theorem isNewline_relabel (c : Char) :
    decide (relabeling c ≠ '\n') = decide (c ≠ '\n') := by
  simp [relabeling.newline_eq_iff]

@[simp] theorem lastLine_relabel :
    (text.relabel relabeling).lastLine = text.lastLine.relabel relabeling := by
  rw [lastLine, lastLine, relabel_reverse, ← relabel_reverse relabeling text]
  exact congrArg List.reverse
    (takeWhile_relabel relabeling (isNewline_relabel relabeling) text.reverse)

@[simp] theorem beforeLastLine_relabel :
    (text.relabel relabeling).beforeLastLine = text.beforeLastLine.relabel relabeling := by
  rw [beforeLastLine, beforeLastLine, relabel_reverse, ← relabel_reverse relabeling text]
  exact congrArg List.reverse
    (dropWhile_relabel relabeling (isNewline_relabel relabeling) text.reverse)

end Text
end OutputThreading
