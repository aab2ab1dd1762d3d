import OutputThreading.Proofs.Call.Reading
import OutputThreading.Proofs.Offset.Cut

/-!
# Calls at byte offsets

The calls of a statement are found by searching its interior for one call after the other, each time
from the offset where the argument of the last one ends.  Where an argument ends is told by counting
bytes.  All these offsets stand between characters, and the calls that are found are those of the
text (`Offset.calls_eq`).
-/

namespace OutputThreading

/-! ## The part of a call in front of its argument -/

namespace Call

/-- Read a call up to its argument. -/
def readHead? (text : Text) : Option (Call × Text) := do
  let behindWord ← text.after? opener
  let behindQuote ← behindWord.trimStart.after? ['"']
  let (callee, behindName) ← behindQuote.breakOn? ['"']
  if behindWord.leadingSpace = [] ∨ callee = [] then none
  else some (⟨behindWord.leadingSpace, callee, []⟩, behindName)

/-- A call is its head and the argument that is cut off behind it. -/
theorem read?_eq_map_readHead? (text : Text) :
    read? text = (readHead? text).map fun (head, behind) =>
      ({ head with argument := (Argument.split behind).1 }, (Argument.split behind).2) := by
  simp only [read?, readHead?, Option.bind_eq_bind, Option.map_bind, Function.comp_def]
  congr 1; funext behindWord
  congr 1; funext behindQuote
  congr 1; funext parts
  split <;> rfl

theorem eq_text_append_of_readHead?
    {text behind : Text}
    {head : Call}
    (found : readHead? text = some (head, behind)) :
    text = head.text ++ behind := by
  have read := read?_eq_map_readHead? text
  rw [found] at read
  have written := eq_text_append_of_read? read
  have bare : head.argument = [] := by
    simp only [readHead?, Option.bind_eq_bind, Option.bind_eq_some_iff,
      Option.ite_none_left_eq_some, Option.some.injEq, Prod.mk.injEq] at found
    obtain ⟨_, _, _, _, _, _, _, rfl, _⟩ := found
    rfl
  rw [written]
  simp [Call.text, bare, Argument.split_append]

/-- Calls up to their arguments as a form of text. -/
def headForm : Form Call where
  read? := readHead?
  write := text
  write_ne_nil := form.write_ne_nil
  eq_write_append := eq_text_append_of_readHead?

end Call

namespace Offset

/-! ## The end of an argument -/

/-- The number of bytes up to the parenthesis that closes all parentheses, or of the whole text, when
`depth` parentheses are open and maybe a literal. -/
def balancedLength (depth : Nat) (quote : Option Char) (escaped : Bool) : Text → Nat
  | [] => 0
  | c :: rest =>
      match quote with
      | some mark =>
          if escaped then c.utf8Size + balancedLength depth (some mark) false rest
          else if c = '\\' ∧ mark = '"' then
            c.utf8Size + balancedLength depth (some mark) true rest
          else if c = mark then c.utf8Size + balancedLength depth none false rest
          else c.utf8Size + balancedLength depth (some mark) false rest
      | none =>
          if c = '"' ∨ c = '`' then c.utf8Size + balancedLength depth (some c) false rest
          else if c = '(' then c.utf8Size + balancedLength (depth + 1) none false rest
          else if c = ')' then
            if depth - 1 = 0 then 1 else c.utf8Size + balancedLength (depth - 1) none false rest
          else c.utf8Size + balancedLength depth none false rest

/-- The number of bytes up to the mark that closes a literal, or of the whole text. -/
def quotedLength (mark : Char) (escaped : Bool) : Text → Nat
  | [] => 0
  | c :: rest =>
      if escaped then c.utf8Size + quotedLength mark false rest
      else if c = '\\' ∧ mark = '"' then c.utf8Size + quotedLength mark true rest
      else if c = mark then c.utf8Size
      else c.utf8Size + quotedLength mark false rest

/-- The number of bytes of a text that is no white space up to where its leading argument ends, if
one starts there. -/
def argumentLength? (text : Text) : Option Nat :=
  match text with
  | [] => none
  | c :: rest =>
      if c = '(' then some (balancedLength 0 none false text)
      else if c = '"' ∨ c = '`' then some (c.utf8Size + quotedLength c false rest)
      else if Argument.opensOperand c then
        some (Text.byteSize (text.takeWhile Argument.inOperand))
      else none

/-- Cut a text behind its leading argument, at an offset. -/
def splitArgument (text : Text) : Option (Text × Text) := do
  let trimmed := text.trimStart
  let space ← minus? text.byteSize trimmed.byteSize
  if space = 0 then return ([], text)
  match argumentLength? trimmed with
  | some length => text.cut? (space + length)
  | none => return ([], text)

/-- How the state of a search for the closing parenthesis nests. -/
def nesting (depth : Nat) (quote : Option Char) (escaped : Bool) : Argument.Nesting :=
  match quote with
  | none => .code depth
  | some mark => if escaped then .escaped depth else .literal mark depth

theorem byteSize_takeClosed_cons (nesting : Argument.Nesting) (c : Char) (rest : Text) :
    Text.byteSize (Argument.takeClosed nesting (c :: rest)).1 =
      if (nesting.next c).isClosed then c.utf8Size
      else c.utf8Size + Text.byteSize (Argument.takeClosed (nesting.next c) rest).1 := by
  rw [Argument.takeClosed]
  split <;> simp

/-- While a parenthesis is open, the bytes are those of the text up to where everything is closed. -/
theorem balancedLength_eq
    (depth : Nat)
    (quote : Option Char)
    (escaped : Bool)
    (quoted : escaped = true → quote = some '"')
    (text : Text) :
    balancedLength (depth + 1) quote escaped text =
      Text.byteSize (Argument.takeClosed (nesting (depth + 1) quote escaped) text).1 := by
  induction text generalizing depth quote escaped with
  | nil => rfl
  | cons c rest inductionHypothesis =>
      rw [byteSize_takeClosed_cons]
      match quote, escaped with
      | some mark, true =>
          obtain rfl : mark = '"' := by simpa using quoted
          simp [balancedLength, nesting, Argument.Nesting.next, Argument.Nesting.isClosed,
            inductionHypothesis]
      | some mark, false =>
          by_cases escapes : c = '\\' ∧ mark = '"'
          · obtain ⟨rfl, rfl⟩ := escapes
            simp [balancedLength, nesting, Argument.Nesting.next, Argument.Nesting.isClosed,
              inductionHypothesis]
          by_cases closes : c = mark
          · subst closes
            simp [balancedLength, nesting, Argument.Nesting.next, Argument.Nesting.isClosed,
              inductionHypothesis, escapes]
          · simp [balancedLength, nesting, Argument.Nesting.next, Argument.Nesting.isClosed,
              inductionHypothesis, escapes, closes]
      | none, true => cases quoted rfl
      | none, false =>
          by_cases opens : c = '"' ∨ c = '`'
          · simp [balancedLength, nesting, Argument.Nesting.next, Argument.Nesting.isClosed,
              inductionHypothesis, opens]
          by_cases deeper : c = '('
          · simp [balancedLength, nesting, Argument.Nesting.next, Argument.Nesting.isClosed,
              inductionHypothesis, deeper]
          by_cases closes : c = ')'
          · cases depth with
            | zero =>
                have single : ')'.utf8Size = 1 := by decide
                simp [balancedLength, nesting, Argument.Nesting.next, Argument.Nesting.isClosed,
                  closes, single]
            | succ depth =>
                simp [balancedLength, nesting, Argument.Nesting.next, Argument.Nesting.isClosed,
                  inductionHypothesis, closes]
          · simp [balancedLength, nesting, Argument.Nesting.next, Argument.Nesting.isClosed,
              inductionHypothesis, opens, deeper, closes]

/-- Inside of a literal, the bytes are those of the text up to where everything is closed. -/
theorem quotedLength_eq
    (mark : Char)
    (escaped : Bool)
    (quoted : escaped = true → mark = '"')
    (text : Text) :
    quotedLength mark escaped text =
      Text.byteSize (Argument.takeClosed (nesting 0 (some mark) escaped) text).1 := by
  induction text generalizing escaped with
  | nil => rfl
  | cons c rest inductionHypothesis =>
      rw [byteSize_takeClosed_cons, quotedLength]
      cases escaped with
      | true =>
          obtain rfl := quoted rfl
          simp [nesting, Argument.Nesting.next, Argument.Nesting.isClosed, inductionHypothesis]
      | false =>
          by_cases escapes : c = '\\' ∧ mark = '"'
          · obtain ⟨rfl, rfl⟩ := escapes
            simp [nesting, Argument.Nesting.next, Argument.Nesting.isClosed, inductionHypothesis]
          by_cases closes : c = mark
          · subst closes
            simp [nesting, Argument.Nesting.next, Argument.Nesting.isClosed, escapes]
          · simp [nesting, Argument.Nesting.next, Argument.Nesting.isClosed, escapes, closes,
              inductionHypothesis]

/-- The length of an argument is told exactly where one is cut off. -/
theorem argumentLength?_eq (text : Text) :
    argumentLength? text =
      (Argument.splitTight text).map fun parts => Text.byteSize parts.1 := by
  cases text with
  | nil => rfl
  | cons c rest =>
      rw [argumentLength?, Argument.splitTight, Argument.opensClosed]
      by_cases paren : c = '('
      · have balanced := balancedLength_eq 0 none false (by simp) rest
        subst paren
        simp [byteSize_takeClosed_cons, balancedLength, Argument.Nesting.next,
          Argument.Nesting.isClosed, balanced, nesting]
      by_cases quote : c = '"' ∨ c = '`'
      · have quoted := quotedLength_eq c false (by simp) rest
        simp [byteSize_takeClosed_cons, Argument.Nesting.next, Argument.Nesting.isClosed, paren,
          quote, quoted, nesting]
      · simp only [not_or] at quote
        by_cases operand : Argument.opensOperand c = true
        · simp [paren, quote, operand]
        · simp [paren, quote, operand]

/-- Cutting at the offset where the argument ends cuts the argument off. -/
theorem splitArgument_eq (text : Text) : splitArgument text = some (Argument.split text) := by
  have space : minus? text.byteSize text.trimStart.byteSize = some text.leadingSpace.byteSize := by
    conv => enter [1, 1]; rw [← text.leadingSpace_append_trimStart]
    exact minus?_byteSize_append _ _
  rw [splitArgument, space, Argument.split]
  simp only [Option.bind_eq_bind, Option.bind_some]
  by_cases tight : text.leadingSpace = []
  · rw [if_pos (by simp [tight]), if_pos tight]
    rfl
  · rw [if_neg fun empty => tight (Text.eq_nil_of_byteSize_eq_zero empty), if_neg tight,
      argumentLength?_eq]
    cases found : Argument.splitTight text.trimStart with
    | none => rfl
    | some parts =>
        have parts_eq : text = (text.leadingSpace ++ parts.1) ++ parts.2 := by
          rw [List.append_assoc, Argument.append_eq_of_splitTight found,
            Text.leadingSpace_append_trimStart]
        change text.cut? (text.leadingSpace.byteSize + Text.byteSize parts.1) = _
        rw [← Text.byteSize_append]
        exact Text.cut?_eq_some_iff.mpr ⟨parts_eq, rfl⟩

/-! ## The search for calls -/

/-- A call with the ranges of its statement and of itself, and with the text of the statement around
it. -/
structure LocatedCall where
  /-- The range of the statement. -/
  span : Span
  /-- The range of the call. -/
  callSpan : Span
  /-- The name of the called template. -/
  callee : Text
  /-- The text between the opening braces and the call. -/
  before : Text
  /-- The argument with the white space in front of it. -/
  argument : Text
  /-- The text between the call and the closing braces. -/
  after : Text
deriving Repr, DecidableEq

/-- The calls in the interior of a statement from a position on.  The statement has the given range,
and its interior starts at the offset `base`. -/
def callsFrom (interior : Text) (span : Span) (base position : Nat) :
    Option (List LocatedCall) := do
  let behind ← interior.sliceFrom? position
  match Call.headForm.first? behind with
  | none => return []
  | some (found, head) =>
      let behindHead ← interior.sliceFrom? (position + found.stop)
      let (argument, after) ← splitArgument behindHead
      let stop ← minus? interior.byteSize after.byteSize
      let before ← interior.sliceTo? (position + found.start)
      if IsAhead interior (position + found.start) stop then
        let others ← callsFrom interior span base stop
        return ⟨span, ⟨base + (position + found.start), base + stop⟩, head.callee, before, argument,
          after⟩ :: others
      else none
termination_by interior.byteSize - position
decreasing_by omega

/-- The calls in the statements of a text. -/
def calls (text : Text) : Option (List LocatedCall) := do
  let found ← (Statement.form.placed 0 text).mapM fun (start, statement) =>
    callsFrom statement.interior ⟨start, start + statement.text.byteSize⟩
      (start + Statement.opening.byteSize) 0
  return found.flatten

/-- The call at a place of the interior of a statement. -/
def LocatedCall.ofOccurrence (span : Span) (base : Nat) (call : Form.Occurrence Call) :
    LocatedCall where
  span
  callSpan := (Span.behind call.before call.phrase.text).shift base
  callee := call.phrase.callee
  before := call.before
  argument := call.phrase.argument
  after := call.after

/-- A call site of a text with its ranges. -/
def LocatedCall.ofSite (site : CallSite) : LocatedCall :=
  ofOccurrence site.span (site.statement.before ++ Statement.opening).byteSize site.call

/-- The search passes over a character that starts no call. -/
theorem callsFrom_char
    {seen tail : Text}
    {c : Char}
    (notRead : Call.form.read? (c :: tail) = none)
    (span : Span)
    (base : Nat) :
    callsFrom (seen ++ c :: tail) span base seen.byteSize =
      callsFrom (seen ++ c :: tail) span base (seen ++ [c]).byteSize := by
  have noHead : Call.headForm.read? (c :: tail) = none := by
    have none := (Call.read?_eq_map_readHead? (c :: tail)).symm.trans notRead
    exact Option.map_eq_none_iff.mp none
  have moved : seen ++ c :: tail = (seen ++ [c]) ++ tail := by simp
  have position (offset : Nat) :
      (seen ++ [c]).byteSize + offset = seen.byteSize + (c.utf8Size + offset) := by
    simp [Nat.add_assoc]
  rw [callsFrom, Text.sliceFrom?_append, callsFrom, moved, Text.sliceFrom?_append]
  simp only [Option.bind_eq_bind, Option.bind_some,
    Call.headForm.first?_cons_of_read?_eq_none noHead]
  cases Call.headForm.first? tail with
  | none => rfl
  | some found => simp only [Option.map_some, Span.shift, position]

/-- The search goes on behind a call with its argument. -/
theorem callsFrom_of_read?
    {seen text rest : Text}
    {call : Call}
    (read : Call.form.read? text = some (call, rest))
    (span : Span)
    (base : Nat) :
    callsFrom (seen ++ text) span base seen.byteSize = do
      let others ← callsFrom (seen ++ text) span base (seen ++ call.text).byteSize
      return .ofOccurrence span base ⟨seen, call, rest⟩ :: others := by
  obtain ⟨⟨head, behind⟩, headRead, parts⟩ :=
    Option.map_eq_some_iff.mp ((Call.read?_eq_map_readHead? text).symm.trans read)
  obtain ⟨rfl, rfl⟩ := Prod.mk.inj parts
  have text_eq := Call.eq_text_append_of_read? read
  have headStop : seen.byteSize + head.text.byteSize = (seen ++ head.text).byteSize := by simp
  have atHead : seen ++ text = (seen ++ head.text) ++ behind := by
    rw [Call.eq_text_append_of_readHead? headRead, List.append_assoc]
  have afterHead : (seen ++ text).sliceFrom? (seen.byteSize + head.text.byteSize) = some behind := by
    rw [atHead, headStop, Text.sliceFrom?_append]
  have argumentStop := minus?_byteSize_append
    (seen ++ Call.text { head with argument := (Argument.split behind).1 }) (Argument.split behind).2
  rw [List.append_assoc, ← text_eq] at argumentStop
  have ahead : IsAhead (seen ++ text) seen.byteSize
      (seen ++ Call.text { head with argument := (Argument.split behind).1 }).byteSize := by
    rw [text_eq]
    exact isAhead_append (Call.form.write_ne_nil _) seen _
  rw [callsFrom, Text.sliceFrom?_append]
  simp only [Option.bind_eq_bind, Option.bind_some, Call.headForm.first?_of_read? headRead]
  change ((seen ++ text).sliceFrom? (seen.byteSize + head.text.byteSize)).bind _ = _
  simp only [afterHead, Option.bind_some, splitArgument_eq, argumentStop, Nat.add_zero,
    Text.sliceTo?_append, if_pos ahead]
  simp only [LocatedCall.ofOccurrence, Span.behind, Span.shift, Text.byteSize_append]

/-- The search finds the calls of the interior, where `seen` is the part already passed, its nearest
character first. -/
theorem callsFrom_eq
    (seen text : Text)
    (span : Span)
    (base : Nat) :
    callsFrom (seen.reverse ++ text) span base (Text.byteSize seen.reverse) =
      some ((Call.form.occurrencesFrom seen (Call.form.split text)).map
        (.ofOccurrence span base)) := by
  fun_induction Call.form.split text generalizing seen with
  | case1 =>
      rw [callsFrom, Text.sliceFrom?_append]
      simp [Form.occurrencesFrom]
  | case2 c tail call rest read inductionHypothesis =>
      have passed : seen.reverse ++ c :: tail =
          ((Call.form.write call).reverse ++ seen).reverse ++ rest := by
        rw [Call.form.eq_write_append read]
        simp
      have stop : seen.reverse ++ call.text = ((Call.form.write call).reverse ++ seen).reverse := by
        rw [List.reverse_append, List.reverse_reverse]
        rfl
      rw [callsFrom_of_read? read, stop, passed, inductionHypothesis, Form.occurrencesFrom,
        Form.join_split]
      rfl
  | case3 c tail notRead inductionHypothesis =>
      have passed : seen.reverse ++ c :: tail = (c :: seen).reverse ++ tail := by simp
      have stop : seen.reverse ++ [c] = (c :: seen).reverse := by simp
      rw [callsFrom_char notRead, stop, passed, inductionHypothesis]
      rfl

/-- The calls that are found at offsets are those of the text. -/
theorem calls_eq (text : Text) : calls text = some (text.callSites.map .ofSite) := by
  have perStatement (statement : Form.Occurrence Statement) :
      callsFrom statement.phrase.interior
        ⟨0 + statement.before.byteSize, 0 + statement.before.byteSize +
          statement.phrase.text.byteSize⟩
        (0 + statement.before.byteSize + Statement.opening.byteSize) 0 =
      some ((Call.form.occurrences statement.phrase.interior).map fun call =>
        .ofSite ⟨statement, call⟩) := by
    have found := callsFrom_eq [] statement.phrase.interior
      (Span.behind statement.before statement.phrase.text)
      (statement.before ++ Statement.opening).byteSize
    rw [Text.byteSize_append] at found
    simp only [Nat.zero_add, LocatedCall.ofSite, Text.byteSize_append]
    exact found
  rw [calls, Form.placed_eq_map_occurrences, List.mapM_map]
  simp only [Function.comp_def, perStatement]
  change (List.mapM (m := Option) (fun statement : Form.Occurrence Statement =>
    pure (List.map _ _)) _ >>= _) = _
  rw [List.mapM_pure]
  simp [Text.callSites, List.flatMap_def, Function.comp_def]

end Offset
end OutputThreading
