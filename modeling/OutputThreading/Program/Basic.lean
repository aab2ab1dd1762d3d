import OutputThreading.Template.Basic

/-!
# Programs

A program consists of templates and the main text that is left when their definitions are taken out
of the source.  As a text it lists the producing templates first, then the pure ones, each in order,
and the main text last.
-/

namespace OutputThreading

/-- Templates and a main text. -/
structure Program where
  /-- The templates in the order of their definitions. -/
  templates : Templates
  /-- The text outside of all definitions. -/
  main : Text
deriving Repr, DecidableEq

namespace Program

/-- The text of a program: the producing templates, the pure templates, the main text. -/
def text (program : Program) : Text :=
  (program.templates.producing ++ program.templates.pure).flatMap
    (fun template => template.text ++ ['\n']) ++ program.main

end Program
end OutputThreading
