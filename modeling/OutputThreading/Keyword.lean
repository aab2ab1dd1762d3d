import OutputThreading.Statement

/-!
# Block keywords

Seven keywords open a block that runs to its own end marker.
-/

namespace OutputThreading

/-- A keyword that opens a block. -/
inductive Keyword where
  | if
  | range
  | try
  | while
  | with
  | define
  | block
deriving Repr, DecidableEq

namespace Keyword

/-- All keywords. -/
def all : List Keyword :=
  [.if, .range, .try, .while, .with, .define, .block]

/-- The spelling of a keyword. -/
def name : Keyword → Text
  | .if => "if".toList
  | .range => "range".toList
  | .try => "try".toList
  | .while => "while".toList
  | .with => "with".toList
  | .define => "define".toList
  | .block => "block".toList

/-- The keyword with a given spelling. -/
def ofName? (name : Text) : Option Keyword :=
  all.find? fun keyword => keyword.name = name

/-- The text that opens a block: the braces and the keyword. -/
def opener (keyword : Keyword) : Text :=
  Statement.opening ++ keyword.name

@[simp] theorem mem_all (keyword : Keyword) : keyword ∈ all := by
  cases keyword <;> decide

@[simp] theorem ofName?_name (keyword : Keyword) : ofName? keyword.name = some keyword := by
  cases keyword <;> decide

end Keyword
end OutputThreading
