import OutputThreading.Config
import OutputThreading.Json.Value

/-!
# Reading configurations

A configuration is written as a JSON object with a member for each setting, or as an array with the
settings in order.  Settings that are left out keep their defaults, members of other names are
ignored, and a setting may be given only once.  Every configuration can be written in this way
(`Config.ofJson?_toJson`).
-/

namespace OutputThreading
namespace Config

/-- The text of a JSON string. -/
def readText? : Json → Option Text
  | .string literal => literal.text?
  | _ => none

/-- The member of a list of choices that a JSON value names, by its name or by an object with that
name as its only key and a null value. -/
def readChoice? {α : Type} (choices : List α) (name : α → Text) (value : Json) : Option α := do
  let chosen ← match value with
    | .string literal => literal.text?
    | .object [(key, .null)] => key.text?
    | _ => none
  choices.find? fun choice => name choice = chosen

/-- The mode that a JSON value names. -/
def readMode? : Json → Option Mode :=
  readChoice? Mode.all Mode.name

/-- The naming strategy that a JSON value names. -/
def readNaming? : Json → Option Naming :=
  readChoice? Naming.all Naming.name

/-- The policy for unknown calls that a JSON value names. -/
def readUnknownCalls? : Json → Option UnknownCalls :=
  readChoice? UnknownCalls.all UnknownCalls.name

/-- A setting that is given by at most one value. -/
def readSetting? {α : Type} (read? : Json → Option α) (default : α) : List Json → Option α
  | [] => some default
  | [value] => read? value
  | _ => none

/-- A configuration from the values given for each setting. -/
def ofSettings? (mode naming unknownCalls indent : List Json) : Option Config := do
  let defaults : Config := {}
  return {
    mode := ← readSetting? readMode? defaults.mode mode
    naming := ← readSetting? readNaming? defaults.naming naming
    unknownCalls := ← readSetting? readUnknownCalls? defaults.unknownCalls unknownCalls
    indent := ← readSetting? readText? defaults.indent indent }

/-- The values of the members with a given key. -/
def valuesOf (members : List (Text × Json)) (key : Text) : List Json :=
  members.filterMap fun (name, value) => if name = key then some value else none

/-- A configuration from the members of an object. -/
def ofMembers? (members : List (Text × Json)) : Option Config :=
  let values := valuesOf members
  ofSettings? (values "mode".toList) (values "naming".toList) (values "unknown_calls".toList)
    (values "indent".toList)

/-- A configuration from the items of an array. -/
def ofItems? (items : List Json) : Option Config :=
  if items.length ≤ 4 then
    ofSettings? items[0]?.toList items[1]?.toList items[2]?.toList items[3]?.toList
  else none

/-- The configuration that a JSON value describes. -/
def ofJson? : Json → Option Config
  | .object members => do
      let named ← members.mapM fun (key, value) => key.text?.map fun name => (name, value)
      ofMembers? named
  | .array items => ofItems? items
  | _ => none

/-- The configuration that a JSON text describes. -/
def ofText? (text : Text) : Option Config := do
  ofJson? (← Json.ofText? text)

/-! ## Every configuration can be written -/

/-- A choice is read from its name if the names of the choices differ. -/
theorem readChoice?_string_ofText
    {α : Type}
    {choices : List α}
    {name : α → Text}
    (differ : ∀ first ∈ choices, ∀ second ∈ choices, name first = name second → first = second)
    {choice : α}
    (member : choice ∈ choices) :
    readChoice? choices name (.string (Json.Literal.ofText (name choice))) = some choice := by
  cases found : choices.find? fun other => name other = name choice with
  | none => simpa using List.find?_eq_none.mp found choice member
  | some other =>
      have same : name other = name choice := by simpa using List.find?_some found
      have equal := differ other (List.mem_of_find?_eq_some found) choice member same
      simp [readChoice?, found, equal]

/-- The JSON object with a member for every setting. -/
def toJson (config : Config) : Json :=
  let members : List (Text × Text) :=
    [("mode".toList, config.mode.name), ("naming".toList, config.naming.name),
      ("unknown_calls".toList, config.unknownCalls.name), ("indent".toList, config.indent)]
  .object <| members.map fun (key, value) =>
    (Json.Literal.ofText key, .string (Json.Literal.ofText value))

/-- A configuration is read back from the object that gives all its settings. -/
theorem ofJson?_toJson (config : Config) : ofJson? config.toJson = some config := by
  obtain ⟨mode, naming, unknownCalls, indent⟩ := config
  have readMode : readMode? (.string (Json.Literal.ofText mode.name)) = some mode :=
    readChoice?_string_ofText (by decide) (by cases mode <;> decide)
  have readNaming : readNaming? (.string (Json.Literal.ofText naming.name)) = some naming :=
    readChoice?_string_ofText (by decide) (by cases naming <;> decide)
  have readPolicy :
      readUnknownCalls? (.string (Json.Literal.ofText unknownCalls.name)) = some unknownCalls :=
    readChoice?_string_ofText (by decide) (by cases unknownCalls <;> decide)
  have named : ofJson? (toJson ⟨mode, naming, unknownCalls, indent⟩) =
      ofSettings? [.string (Json.Literal.ofText mode.name)]
        [.string (Json.Literal.ofText naming.name)]
        [.string (Json.Literal.ofText unknownCalls.name)]
        [.string (Json.Literal.ofText indent)] := by
    simp only [toJson, ofJson?, List.map_cons, List.map_nil, List.mapM_cons, List.mapM_nil,
      Json.Literal.text?_ofText, Option.map_some, Option.bind_eq_bind, Option.bind_some,
      Option.pure_def, ofMembers?]
    rfl
  rw [named]
  simp only [ofSettings?, readSetting?, readMode, readNaming, readPolicy, readText?,
    Json.Literal.text?_ofText, Option.bind_eq_bind, Option.bind_some, Option.pure_def]

end Config
end OutputThreading
