import OutputThreading.Json.Literal

/-!
# JSON tokens

A JSON text is a sequence of tokens with white space between them.
-/

namespace OutputThreading
namespace Json

/-- A token of a JSON text. -/
inductive Token where
  | openBrace
  | closeBrace
  | openBracket
  | closeBracket
  | colon
  | comma
  | null
  | bool (value : Bool)
  | number
  | string (literal : Literal)
deriving Repr, DecidableEq

namespace Token

/-- White space of a JSON text. -/
def isSpace (c : Char) : Bool :=
  c = ' ' || c = '\t' || c = '\n' || c = '\r'

/-- The text behind a run of at least one digit. -/
def behindDigits? (text : Text) : Option Text :=
  match text with
  | [] => none
  | c :: rest => if c.isDigit then some (rest.dropWhile Char.isDigit) else none

/-- The text behind the digits in front of the point: a zero, or digits that start with no zero. -/
def behindInteger? (text : Text) : Option Text :=
  match text with
  | '0' :: rest => some rest
  | _ => behindDigits? text

/-- The text behind the point and its digits, if there is a point. -/
def behindFraction? (text : Text) : Option Text :=
  match text with
  | '.' :: rest => behindDigits? rest
  | _ => some text

/-- The text without a leading sign. -/
def behindSign (text : Text) : Text :=
  match text with
  | '+' :: rest => rest
  | '-' :: rest => rest
  | _ => text

/-- The text behind the exponent, if there is one. -/
def behindExponent? (text : Text) : Option Text :=
  match text with
  | 'e' :: rest => behindDigits? (behindSign rest)
  | 'E' :: rest => behindDigits? (behindSign rest)
  | _ => some text

/-- The text behind a number without its minus sign. -/
def behindNumber? (text : Text) : Option Text := do
  behindExponent? (← behindFraction? (← behindInteger? text))

/-- Read a token at the start of a text. -/
def read? (text : Text) : Option (Token × Text) :=
  match text with
  | [] => none
  | '\x7b' :: rest => some (.openBrace, rest)
  | '\x7d' :: rest => some (.closeBrace, rest)
  | '[' :: rest => some (.openBracket, rest)
  | ']' :: rest => some (.closeBracket, rest)
  | ':' :: rest => some (.colon, rest)
  | ',' :: rest => some (.comma, rest)
  | 'n' :: rest => (Text.after? rest "ull".toList).map fun rest => (.null, rest)
  | 't' :: rest => (Text.after? rest "rue".toList).map fun rest => (.bool true, rest)
  | 'f' :: rest => (Text.after? rest "alse".toList).map fun rest => (.bool false, rest)
  | '"' :: rest => (Literal.read? rest).map fun (literal, rest) => (.string literal, rest)
  | '-' :: rest => (behindNumber? rest).map fun rest => (.number, rest)
  | c :: rest => (behindNumber? (c :: rest)).map fun rest => (.number, rest)

theorem length_behindDigits?_lt
    {text rest : Text}
    (found : behindDigits? text = some rest) :
    rest.length < text.length := by
  cases text with
  | nil => cases found
  | cons c tail =>
      simp only [behindDigits?, Option.ite_none_right_eq_some, Option.some.injEq] at found
      have shorter := (List.dropWhile_sublist (l := tail) Char.isDigit).length_le
      rw [found.2] at shorter
      simp only [List.length_cons]
      omega

theorem length_behindInteger?_lt
    {text rest : Text}
    (found : behindInteger? text = some rest) :
    rest.length < text.length := by
  rw [behindInteger?.eq_def] at found
  split at found
  · simp only [Option.some.injEq] at found
    simp [← found]
  · exact length_behindDigits?_lt found

theorem length_behindFraction?_le
    {text rest : Text}
    (found : behindFraction? text = some rest) :
    rest.length ≤ text.length := by
  rw [behindFraction?.eq_def] at found
  split at found
  · have := length_behindDigits?_lt found
    simp only [List.length_cons]
    omega
  · simp only [Option.some.injEq] at found
    simp [← found]

theorem length_behindSign_le (text : Text) : (behindSign text).length ≤ text.length := by
  rw [behindSign.eq_def]
  split <;> simp

theorem length_behindExponent?_le
    {text rest : Text}
    (found : behindExponent? text = some rest) :
    rest.length ≤ text.length := by
  rw [behindExponent?.eq_def] at found
  split at found
  next tail =>
    have := length_behindDigits?_lt found
    have := length_behindSign_le tail
    simp only [List.length_cons]
    omega
  next tail =>
    have := length_behindDigits?_lt found
    have := length_behindSign_le tail
    simp only [List.length_cons]
    omega
  next =>
    simp only [Option.some.injEq] at found
    simp [← found]

theorem length_behindNumber?_lt
    {text rest : Text}
    (found : behindNumber? text = some rest) :
    rest.length < text.length := by
  simp only [behindNumber?, Option.bind_eq_bind, Option.bind_eq_some_iff] at found
  obtain ⟨behindInteger, integer, behindFraction, fraction, exponent⟩ := found
  have := length_behindInteger?_lt integer
  have := length_behindFraction?_le fraction
  have := length_behindExponent?_le exponent
  omega

/-- A token takes at least one character. -/
theorem length_lt_of_read?
    {text rest : Text}
    {token : Token}
    (found : read? text = some (token, rest)) :
    rest.length < text.length := by
  rw [read?.eq_def] at found
  split at found
  case h_1 => cases found
  case h_2 | h_3 | h_4 | h_5 | h_6 | h_7 =>
    simp only [Option.some.injEq, Prod.mk.injEq] at found
    simp [← found.2]
  case h_8 | h_9 | h_10 =>
    simp only [Option.map_eq_some_iff, Prod.mk.injEq] at found
    obtain ⟨remaining, taken, _, rfl⟩ := found
    rw [Text.eq_append_of_after? taken]
    simp only [List.length_cons, List.length_append]
    omega
  case h_11 =>
    simp only [Option.map_eq_some_iff, Prod.mk.injEq] at found
    obtain ⟨⟨literal, remaining⟩, taken, _, rfl⟩ := found
    have := Literal.length_lt_of_read? taken
    simp only [List.length_cons]
    omega
  case h_12 | h_13 =>
    simp only [Option.map_eq_some_iff, Prod.mk.injEq] at found
    obtain ⟨remaining, taken, _, rfl⟩ := found
    have := length_behindNumber?_lt taken
    simp only [List.length_cons] at this ⊢
    omega

/-- The tokens of a text, if it consists of tokens and white space. -/
def ofText? (text : Text) : Option (List Token) :=
  match _start : text.dropWhile isSpace with
  | [] => some []
  | c :: tail =>
      match _found : read? (c :: tail) with
      | some (token, rest) => (ofText? rest).map (token :: ·)
      | none => none
termination_by text.length
decreasing_by
  have shorter := (List.dropWhile_sublist (l := text) isSpace).length_le
  have := length_lt_of_read? _found
  rw [_start] at shorter
  omega

end Token
end Json
end OutputThreading
