import OutputThreading.Call.Argument
import OutputThreading.Statement

/-!
# Calls

A call is the word `execTemplate`, the quoted name of a template, and at most one argument.  Calls
stand inside statements; a statement may hold several.
-/

namespace OutputThreading

/-- A call of a template. -/
structure Call where
  /-- The white space in front of the quoted name. -/
  spacing : Text
  /-- The name of the called template. -/
  callee : Text
  /-- The argument with the white space in front of it, empty if there is none. -/
  argument : Text
deriving Repr, DecidableEq

namespace Call

/-- The word that starts a call. -/
def opener : Text :=
  "execTemplate".toList

/-- A call as it stands in a text. -/
def text (call : Call) : Text :=
  opener ++ call.spacing ++ ['"'] ++ call.callee ++ ['"'] ++ call.argument

/-- A call with a single space in front of the quoted name. -/
def normalized (call : Call) : Call :=
  { call with spacing := [' '] }

/-- Read a call at the start of a text. -/
def read? (text : Text) : Option (Call × Text) := do
  let behindWord ← text.after? opener
  let behindQuote ← behindWord.trimStart.after? ['"']
  let (callee, behindName) ← behindQuote.breakOn? ['"']
  if behindWord.leadingSpace = [] ∨ callee = [] then none
  else
    some (⟨behindWord.leadingSpace, callee, (Argument.split behindName).1⟩,
      (Argument.split behindName).2)

theorem eq_text_append_of_read?
    {text rest : Text}
    {call : Call}
    (found : read? text = some (call, rest)) :
    text = call.text ++ rest := by
  simp only [read?, Option.bind_eq_bind, Option.bind_eq_some_iff] at found
  obtain ⟨behindWord, word, behindQuote, quote, ⟨callee, behindName⟩, name, found⟩ := found
  simp only [Option.ite_none_left_eq_some, Option.some.injEq, Prod.mk.injEq] at found
  obtain ⟨_, rfl, rfl⟩ := found
  have parts : behindWord =
      behindWord.leadingSpace ++ (['"'] ++ (callee ++ ['"'] ++ behindName)) := by
    rw [← Text.eq_append_of_breakOn? name, ← Text.eq_append_of_after? quote,
      Text.leadingSpace_append_trimStart]
  rw [Text.eq_append_of_after? word]
  conv => lhs; rw [parts]
  simp [Call.text, Argument.split_append]

/-- Calls as a form of text. -/
def form : Form Call where
  read? := read?
  write := text
  write_ne_nil call := by simp [text]
  eq_write_append := eq_text_append_of_read?

end Call

/-- A call inside a statement of a text. -/
structure CallSite where
  /-- The statement in its text. -/
  statement : Form.Occurrence Statement
  /-- The call in the interior of the statement. -/
  call : Form.Occurrence Call
deriving Repr, DecidableEq

/-- The names of the templates that a statement calls, from left to right. -/
def Statement.callees (statement : Statement) : List Text :=
  (Call.form.phrases statement.interior).map Call.callee

namespace Text

/-- The calls in the statements of a text, from left to right. -/
def callSites (text : Text) : List CallSite :=
  (Statement.form.occurrences text).flatMap fun statement =>
    (Call.form.occurrences statement.phrase.interior).map fun call => ⟨statement, call⟩

/-- The names of the templates that the statements of a text call, from left to right. -/
def callees (text : Text) : List Text :=
  (Statement.form.phrases text).flatMap Statement.callees

/-- The call sites of a text call the templates that the text calls. -/
theorem map_callee_callSites (text : Text) :
    text.callSites.map (fun site => site.call.phrase.callee) = text.callees := by
  have perStatement (statement : Form.Occurrence Statement) :
      (Call.form.occurrences statement.phrase.interior).map (fun call => call.phrase.callee) =
        statement.phrase.callees := by
    rw [Statement.callees, ← Form.map_phrase_occurrences, List.map_map]
    rfl
  rw [callees, ← Form.map_phrase_occurrences, List.flatMap_map, callSites, List.map_flatMap]
  simp [Function.comp_def, perStatement]

end Text
end OutputThreading
