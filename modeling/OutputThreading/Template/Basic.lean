import OutputThreading.Call.Basic
import OutputThreading.Signature

/-!
# Templates

A template is a named definition block.  Templates are kept in the order of their definitions, with
one template for each name.
-/

namespace OutputThreading

/-- A template definition. -/
structure Template where
  /-- The name under which the template is called. -/
  name : Text
  /-- The whole definition, from its opener to its end statement. -/
  text : Text
  /-- The line of the definition, counted from one. -/
  line : Nat
  /-- What callers have to know. -/
  signature : Signature
deriving Repr, DecidableEq

/-- The templates of a program in order. -/
abbrev Templates := List Template

namespace Templates

/-- The template with a given name. -/
def find? (templates : Templates) (name : Text) : Option Template :=
  List.find? (fun template => template.name = name) templates

/-- The signatures of the templates. -/
def signatures (templates : Templates) : Signatures :=
  fun name => (templates.find? name).map Template.signature

/-- Put a template into the place of the one with its name, or behind all others. -/
def insert (templates : Templates) (template : Template) : Templates :=
  match templates with
  | [] => [template]
  | first :: others =>
      if first.name = template.name then template :: others
      else first :: Templates.insert others template

/-- Keep only the first template of every name. -/
def keepFirst : Templates → Templates
  | [] => []
  | template :: others =>
      template :: (keepFirst others).filter fun other => other.name ≠ template.name

/-- The templates that produce output. -/
def producing (templates : Templates) : Templates :=
  templates.filter fun template => template.signature.isProducing

/-- The templates that produce no output. -/
def pure (templates : Templates) : Templates :=
  templates.filter fun template => !template.signature.isProducing

end Templates
end OutputThreading
