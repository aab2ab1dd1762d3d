import OutputThreading.Text.Basic

/-!
# JSON strings

A string is read as the sequence of characters and escaped UTF-16 units between its quotes.  Units
above the basic plane come in pairs; a string with half of a pair is well formed but denotes no
text.
-/

namespace OutputThreading
namespace Json

/-- An element of a string between its quotes. -/
inductive Element where
  /-- A character, written plainly or by a short escape. -/
  | char (c : Char)
  /-- A UTF-16 unit, written by its four hexadecimal digits. -/
  | unit (value : Nat)
deriving Repr, DecidableEq

/-- A string as it is written. -/
abbrev Literal := List Element

/-- The value of a hexadecimal digit. -/
def hexDigit? (c : Char) : Option Nat :=
  if '0' ≤ c ∧ c ≤ '9' then some (c.toNat - '0'.toNat)
  else if 'a' ≤ c ∧ c ≤ 'f' then some (c.toNat - 'a'.toNat + 10)
  else if 'A' ≤ c ∧ c ≤ 'F' then some (c.toNat - 'A'.toNat + 10)
  else none

/-- The number that hexadecimal digits write. -/
def hexNumber? (digits : Text) : Option Nat := do
  let values ← digits.mapM hexDigit?
  return values.foldl (fun number digit => 16 * number + digit) 0

/-- The character for a short escape. -/
def shortEscape? (c : Char) : Option Char :=
  match c with
  | '"' => some '"'
  | '\\' => some '\\'
  | '/' => some '/'
  | 'b' => some '\x08'
  | 'f' => some '\x0c'
  | 'n' => some '\n'
  | 'r' => some '\r'
  | 't' => some '\t'
  | _ => none

/-- Put an element in front of a string that was read. -/
def prependElement (element : Element) (read : Literal × Text) : Literal × Text :=
  (element :: read.1, read.2)

namespace Literal

/-- Read a string from behind its opening quote; the rest is what follows the closing quote. -/
def read? : Text → Option (Literal × Text)
  | [] => none
  | '"' :: rest => some ([], rest)
  | '\\' :: 'u' :: a :: b :: c :: d :: rest => do
      let unit ← hexNumber? [a, b, c, d]
      (read? rest).map (prependElement (.unit unit))
  | '\\' :: c :: rest => do
      let escaped ← shortEscape? c
      (read? rest).map (prependElement (.char escaped))
  | c :: rest =>
      if c.toNat < 0x20 then none else (read? rest).map (prependElement (.char c))

/-- Reading a string uses up its closing quote at least. -/
theorem length_lt_of_read?
    {text rest : Text}
    {literal : Literal}
    (found : read? text = some (literal, rest)) :
    rest.length < text.length := by
  fun_induction read? text generalizing literal with
  | case1 => cases found
  | case2 tail =>
      simp only [Option.some.injEq, Prod.mk.injEq] at found
      simp [← found.2]
  | case3 a b c d tail inductionHypothesis =>
      simp only [Option.bind_eq_bind, Option.bind_eq_some_iff, Option.map_eq_some_iff] at found
      obtain ⟨unit, _, ⟨elements, remaining⟩, found, equal⟩ := found
      simp only [prependElement, Prod.mk.injEq] at equal
      obtain ⟨_, rfl⟩ := equal
      have := inductionHypothesis found
      simp only [List.length_cons]
      omega
  | case4 c tail _ inductionHypothesis =>
      simp only [Option.bind_eq_bind, Option.bind_eq_some_iff, Option.map_eq_some_iff] at found
      obtain ⟨escaped, _, ⟨elements, remaining⟩, found, equal⟩ := found
      simp only [prependElement, Prod.mk.injEq] at equal
      obtain ⟨_, rfl⟩ := equal
      have := inductionHypothesis found
      simp only [List.length_cons]
      omega
  | case5 => cases found
  | case6 c tail _ _ _ _ inductionHypothesis =>
      simp only [Option.map_eq_some_iff] at found
      obtain ⟨⟨elements, remaining⟩, found, equal⟩ := found
      simp only [prependElement, Prod.mk.injEq] at equal
      obtain ⟨_, rfl⟩ := equal
      have := inductionHypothesis found
      simp only [List.length_cons]
      omega

/-- The unit is the first half of a pair. -/
def isLeading (unit : Nat) : Bool :=
  0xD800 ≤ unit && unit ≤ 0xDBFF

/-- The unit is the second half of a pair. -/
def isTrailing (unit : Nat) : Bool :=
  0xDC00 ≤ unit && unit ≤ 0xDFFF

/-- The code point of a pair of units. -/
def pairValue (leading trailing : Nat) : Nat :=
  0x10000 + (leading - 0xD800) * 0x400 + (trailing - 0xDC00)

/-- The text of a string, if no half of a pair stands alone. -/
def text? : Literal → Option Text
  | [] => some []
  | .char c :: rest => (text? rest).map (c :: ·)
  | .unit leading :: .unit trailing :: rest =>
      if isLeading leading && isTrailing trailing then
        (text? rest).map (Char.ofNat (pairValue leading trailing) :: ·)
      else if isLeading leading || isTrailing leading then none
      else (text? (.unit trailing :: rest)).map (Char.ofNat leading :: ·)
  | .unit unit :: rest =>
      if isLeading unit || isTrailing unit then none
      else (text? rest).map (Char.ofNat unit :: ·)

/-- The string that writes a text plainly. -/
def ofText (text : Text) : Literal :=
  text.map .char

/-- A plainly written text is denoted again. -/
@[simp] theorem text?_ofText (text : Text) : text? (ofText text) = some text := by
  induction text with
  | nil => rfl
  | cons c text inductionHypothesis =>
      simpa [ofText, text?] using inductionHypothesis

end Literal
end Json
end OutputThreading
