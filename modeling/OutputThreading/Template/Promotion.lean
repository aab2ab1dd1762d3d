import OutputThreading.Template.Basic

/-!
# Promotion

A template that calls an output-producing template produces output as well.  Promotion marks all
templates from which a producing one can be reached through calls.
-/

namespace OutputThreading

/-- Who calls whom: every name with the names it calls. -/
abbrev CallGraph := List (Text × List Text)

namespace CallGraph

/-- The names that are marked or call a marked name. -/
def grow (graph : CallGraph) (marked : List Text) : List Text :=
  graph.filterMap fun (name, callees) =>
    if name ∈ marked || callees.any (· ∈ marked) then some name else none

theorem length_grow_le (graph : CallGraph) (marked : List Text) :
    (graph.grow marked).length ≤ graph.length :=
  List.length_filterMap_le _ _

/-- The names from which a marked name can be reached, found by growing as long as that adds a
name. -/
def reach (graph : CallGraph) (marked : List Text) : List Text :=
  if marked.length < (graph.grow marked).length then graph.reach (graph.grow marked) else marked
termination_by graph.length - marked.length
decreasing_by
  have := graph.length_grow_le marked
  omega

end CallGraph

namespace Templates

/-- The call graph of the templates. -/
def callGraph (templates : Templates) : CallGraph :=
  templates.map fun template => (template.name, template.text.callees)

/-- Mark every template that can reach a producing one as producing. -/
def promote (templates : Templates) : Templates :=
  let reached := templates.callGraph.reach (templates.producing.map Template.name)
  templates.map fun template =>
    if template.name ∈ reached then
      { template with signature := { template.signature with output := .producing } }
    else template

end Templates
end OutputThreading
