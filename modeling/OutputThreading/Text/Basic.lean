import OutputThreading.Character.Class

/-!
# Text

Template text is a list of characters.  This module holds the cuts that all readers share: taking
off a leading pattern, breaking a text at the first occurrence of a pattern, trimming white space,
and counting bytes and lines.  Each cut comes with the law that its parts make up the whole.
-/

namespace OutputThreading

/-- A text is the list of its characters. -/
abbrev Text := List Char

namespace Text

/-! ## Leading patterns -/

/-- What follows a leading `pattern`, if the text starts with it. -/
def after? (text : Text) : (pattern : Text) → Option Text
  | [] => some text
  | p :: pattern =>
      match text with
      | [] => none
      | c :: rest => if c = p then after? rest pattern else none

@[simp] theorem after?_nil (text : Text) : text.after? [] = some text := by
  cases text <;> rfl

@[simp] theorem after?_append (pattern rest : Text) :
    after? (pattern ++ rest) pattern = some rest := by
  induction pattern with
  | nil => simp
  | cons p pattern inductionHypothesis => simpa [after?] using inductionHypothesis

theorem eq_append_of_after?
    {text pattern rest : Text}
    (found : text.after? pattern = some rest) :
    text = pattern ++ rest := by
  induction pattern generalizing text with
  | nil => simpa using found
  | cons p pattern inductionHypothesis =>
      cases text with
      | nil => simp [after?] at found
      | cons c text =>
          by_cases same : c = p
          · simp only [after?, same, if_true] at found
            simp [same, inductionHypothesis found]
          · simp [after?, same] at found

/-- A pattern is taken off exactly when the text is that pattern and the rest. -/
theorem after?_eq_some_iff {text pattern rest : Text} :
    text.after? pattern = some rest ↔ text = pattern ++ rest :=
  ⟨eq_append_of_after?, fun equal => by rw [equal, after?_append]⟩

/-- The text starts with the pattern. -/
def startsWith (text pattern : Text) : Bool :=
  (text.after? pattern).isSome

/-- The text ends with the pattern. -/
def endsWith (text pattern : Text) : Bool :=
  startsWith text.reverse pattern.reverse

/-! ## First occurrences -/

/-- The text in front of the first occurrence of `pattern` and the text behind it. -/
def breakOn? (text pattern : Text) : Option (Text × Text) :=
  match text with
  | [] => (after? [] pattern).map fun rest => ([], rest)
  | c :: tail =>
      match after? (c :: tail) pattern with
      | some rest => some ([], rest)
      | none => (breakOn? tail pattern).map fun (front, rest) => (c :: front, rest)

theorem eq_append_of_breakOn?
    {pattern text front rest : Text}
    (found : text.breakOn? pattern = some (front, rest)) :
    text = front ++ pattern ++ rest := by
  induction text generalizing front with
  | nil =>
      simp only [breakOn?, Option.map_eq_some_iff, Prod.mk.injEq] at found
      obtain ⟨_, taken, rfl, rfl⟩ := found
      simpa using eq_append_of_after? taken
  | cons c text inductionHypothesis =>
      rw [breakOn?] at found
      split at found
      next taken =>
        simp only [Option.some.injEq, Prod.mk.injEq] at found
        obtain ⟨rfl, rfl⟩ := found
        simpa using eq_append_of_after? taken
      next =>
        simp only [Option.map_eq_some_iff, Prod.mk.injEq] at found
        obtain ⟨⟨tailFront, tailRest⟩, tailFound, rfl, rfl⟩ := found
        simpa using inductionHypothesis tailFound

/-- The pattern occurs somewhere in the text. -/
def includes (text pattern : Text) : Bool :=
  (text.breakOn? pattern).isSome

/-- The text in front of the last occurrence of `pattern` and the text behind it. -/
def breakOnLast? (text pattern : Text) : Option (Text × Text) :=
  match text with
  | [] => (after? [] pattern).map fun rest => ([], rest)
  | c :: tail =>
      match breakOnLast? tail pattern with
      | some (front, rest) => some (c :: front, rest)
      | none => (after? (c :: tail) pattern).map fun rest => ([], rest)

theorem eq_append_of_breakOnLast?
    {pattern text front rest : Text}
    (found : text.breakOnLast? pattern = some (front, rest)) :
    text = front ++ pattern ++ rest := by
  induction text generalizing front with
  | nil =>
      simp only [breakOnLast?, Option.map_eq_some_iff, Prod.mk.injEq] at found
      obtain ⟨_, taken, rfl, rfl⟩ := found
      simpa using eq_append_of_after? taken
  | cons c text inductionHypothesis =>
      rw [breakOnLast?] at found
      split at found
      next tailFound =>
        simp only [Option.some.injEq, Prod.mk.injEq] at found
        obtain ⟨rfl, rfl⟩ := found
        simpa using inductionHypothesis tailFound
      next =>
        simp only [Option.map_eq_some_iff, Prod.mk.injEq] at found
        obtain ⟨_, taken, rfl, rfl⟩ := found
        simpa using eq_append_of_after? taken

/-! ## White space -/

/-- The white space at the start of the text. -/
def leadingSpace (text : Text) : Text :=
  text.takeWhile Character.isSpace

/-- The text from its first character on that is no white space. -/
def trimStart (text : Text) : Text :=
  text.dropWhile Character.isSpace

/-- The text without the white space at its end. -/
def trimEnd (text : Text) : Text :=
  (text.reverse.dropWhile Character.isSpace).reverse

/-- The white space at the end of the text. -/
def trailingSpace (text : Text) : Text :=
  (text.reverse.takeWhile Character.isSpace).reverse

/-- The text without the white space at both ends. -/
def trim (text : Text) : Text :=
  text.trimStart.trimEnd

/-- The text holds nothing but white space. -/
def isBlank (text : Text) : Bool :=
  text.all Character.isSpace

theorem leadingSpace_append_trimStart (text : Text) :
    text.leadingSpace ++ text.trimStart = text :=
  List.takeWhile_append_dropWhile

theorem trimEnd_append_trailingSpace (text : Text) :
    text.trimEnd ++ text.trailingSpace = text := by
  rw [trimEnd, trailingSpace, ← List.reverse_append, List.takeWhile_append_dropWhile,
    List.reverse_reverse]

/-! ## Bytes -/

/-- The number of bytes of the text in UTF-8. -/
def byteSize (text : Text) : Nat :=
  text.foldr (fun c size => c.utf8Size + size) 0

@[simp] theorem byteSize_nil : byteSize [] = 0 := rfl

@[simp] theorem byteSize_cons (c : Char) (text : Text) :
    byteSize (c :: text) = c.utf8Size + byteSize text := rfl

@[simp] theorem byteSize_append (left right : Text) :
    byteSize (left ++ right) = byteSize left + byteSize right := by
  induction left with
  | nil => simp
  | cons c left inductionHypothesis =>
      rw [List.cons_append, byteSize_cons, byteSize_cons, inductionHypothesis, Nat.add_assoc]

@[simp] theorem byteSize_reverse (text : Text) : byteSize text.reverse = byteSize text := by
  induction text with
  | nil => rfl
  | cons c text inductionHypothesis =>
      rw [List.reverse_cons, byteSize_append, inductionHypothesis, byteSize_cons, byteSize_cons,
        byteSize_nil, Nat.add_zero, Nat.add_comm]

/-! ## Lines -/

/-- The number of line breaks in the text. -/
def breaks (text : Text) : Nat :=
  text.count '\n'

@[simp] theorem breaks_nil : breaks [] = 0 := rfl

@[simp] theorem breaks_append (left right : Text) :
    breaks (left ++ right) = breaks left + breaks right := by
  simp [breaks]

/-- The part of the text behind its last line break. -/
def lastLine (text : Text) : Text :=
  (text.reverse.takeWhile (· ≠ '\n')).reverse

/-- The part of the text up to its last line break. -/
def beforeLastLine (text : Text) : Text :=
  (text.reverse.dropWhile (· ≠ '\n')).reverse

theorem beforeLastLine_append_lastLine (text : Text) :
    text.beforeLastLine ++ text.lastLine = text := by
  rw [beforeLastLine, lastLine, ← List.reverse_append, List.takeWhile_append_dropWhile,
    List.reverse_reverse]

/-- The spaces and tabs at the start of the text. -/
def indentation (text : Text) : Text :=
  text.takeWhile Character.isIndent

/-! ## Numbers -/

/-- A number in decimal notation. -/
def ofNat (number : Nat) : Text :=
  Nat.toDigits 10 number

end Text
end OutputThreading
