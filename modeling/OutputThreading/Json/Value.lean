import OutputThreading.Json.Token

/-!
# JSON values

Values are read from tokens by a machine that keeps the containers that are still open on a stack.
Members of objects keep their order and may repeat; numbers are recognised, but nothing asks for
their size.
-/

namespace OutputThreading

/-- A JSON value. -/
inductive Json where
  | null
  | bool (value : Bool)
  | number
  | string (literal : Json.Literal)
  | array (items : List Json)
  | object (members : List (Json.Literal × Json))
deriving Repr, Inhabited

namespace Json

/-- A container that is still open, waiting for a value. -/
inductive Container where
  /-- An array with the items so far, the last one first. -/
  | array (items : List Json)
  /-- An object with the members so far, the last one first, and the key of the next one. -/
  | object (members : List (Literal × Json)) (key : Literal)

/-- What the machine expects next, with the open containers around it. -/
inductive Reader where
  /-- A value. -/
  | value (around : List Container)
  /-- The first item of an array or its end. -/
  | firstItem (around : List Container)
  /-- A comma or the end of an array. -/
  | nextItem (around : List Container) (items : List Json)
  /-- The first key of an object or its end. -/
  | firstKey (around : List Container)
  /-- A key of an object. -/
  | key (around : List Container) (members : List (Literal × Json))
  /-- The colon behind a key. -/
  | colon (around : List Container) (members : List (Literal × Json)) (key : Literal)
  /-- A comma or the end of an object. -/
  | nextMember (around : List Container) (members : List (Literal × Json))
  /-- The end of the text. -/
  | done (value : Json)

namespace Reader

/-- Go on behind a complete value. -/
def supply (complete : Json) : List Container → Reader
  | [] => .done complete
  | .array items :: around => .nextItem around (complete :: items)
  | .object members name :: around => .nextMember around ((name, complete) :: members)

/-- Take the first token of a value. -/
def startValue (around : List Container) : Token → Option Reader
  | .null => some (supply .null around)
  | .bool truth => some (supply (.bool truth) around)
  | .number => some (supply .number around)
  | .string literal => some (supply (.string literal) around)
  | .openBracket => some (.firstItem around)
  | .openBrace => some (.firstKey around)
  | _ => none

/-- Take the next token. -/
def step : Reader → Token → Option Reader
  | .value around, token => startValue around token
  | .firstItem around, .closeBracket => some (supply (.array []) around)
  | .firstItem around, token => startValue (.array [] :: around) token
  | .nextItem around items, .comma => some (.value (.array items :: around))
  | .nextItem around items, .closeBracket => some (supply (.array items.reverse) around)
  | .firstKey around, .closeBrace => some (supply (.object []) around)
  | .firstKey around, .string name => some (.colon around [] name)
  | .key around members, .string name => some (.colon around members name)
  | .colon around members name, .colon => some (.value (.object members name :: around))
  | .nextMember around members, .comma => some (.key around members)
  | .nextMember around members, .closeBrace => some (supply (.object members.reverse) around)
  | _, _ => none

end Reader

/-- The value that the tokens of a text make up. -/
def ofTokens? (tokens : List Token) : Option Json :=
  match tokens.foldlM Reader.step (.value []) with
  | some (.done value) => some value
  | _ => none

/-- The value that a text writes. -/
def ofText? (text : Text) : Option Json := do
  ofTokens? (← Token.ofText? text)

end Json
end OutputThreading
