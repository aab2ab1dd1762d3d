import Mathlib.Data.List.Perm.Subperm
import Mathlib.Logic.Relation
import OutputThreading.Template.Promotion

/-!
# Promotion finds what reaches a print

Growing a set of names by their callers until nothing is added finds exactly the names from which a
marked one is reached through calls (`CallGraph.mem_reach_iff`).  So a template is promoted exactly
if it reaches a template that prints (`Templates.isProducing_promote_iff`).
-/

namespace OutputThreading

namespace CallGraph

/-- A name calls another one. -/
def Calls (graph : CallGraph) (caller callee : Text) : Prop :=
  ∃ callees, (caller, callees) ∈ graph ∧ callee ∈ callees

/-- A name reaches one of the marked names through calls, or is one of them. -/
def Reaches (graph : CallGraph) (marked : List Text) (name : Text) : Prop :=
  ∃ target ∈ marked, Relation.ReflTransGen graph.Calls name target

theorem mem_grow_iff {graph : CallGraph} {marked : List Text} {name : Text} :
    name ∈ graph.grow marked ↔
      name ∈ graph.map Prod.fst ∧ name ∈ marked ∨ ∃ callee ∈ marked, graph.Calls name callee := by
  simp only [grow, List.mem_filterMap, Prod.exists, Option.ite_none_right_eq_some,
    Option.some.injEq, Bool.or_eq_true, decide_eq_true_eq, List.any_eq_true, List.mem_map,
    exists_and_right, exists_eq_right, Calls]
  constructor
  · rintro ⟨caller, callees, entry, isMarked | ⟨callee, called, isMarked⟩, rfl⟩
    · exact .inl ⟨⟨callees, entry⟩, isMarked⟩
    · exact .inr ⟨callee, isMarked, callees, entry, called⟩
  · rintro (⟨⟨callees, entry⟩, isMarked⟩ | ⟨callee, isMarked, callees, entry, called⟩)
    · exact ⟨name, callees, entry, .inl isMarked, rfl⟩
    · exact ⟨name, callees, entry, .inr ⟨callee, called, isMarked⟩, rfl⟩

theorem grow_sublist (graph : CallGraph) (marked : List Text) :
    (graph.grow marked).Sublist (graph.map Prod.fst) := by
  induction graph with
  | nil => exact .slnil
  | cons entry graph inductionHypothesis =>
      obtain ⟨name, callees⟩ := entry
      rw [List.map_cons]
      by_cases grows : (name ∈ marked || callees.any (· ∈ marked)) = true
      · simp only [grow, List.filterMap_cons, if_pos grows]
        exact inductionHypothesis.cons_cons name
      · simp only [grow, List.filterMap_cons, if_neg grows]
        exact inductionHypothesis.cons name

theorem subset_grow
    {graph : CallGraph}
    {marked : List Text}
    (known : marked ⊆ graph.map Prod.fst) :
    marked ⊆ graph.grow marked :=
  fun _ isMarked => mem_grow_iff.mpr (.inl ⟨known isMarked, isMarked⟩)

/-- Growing adds only names that reach the marked ones. -/
theorem reaches_grow_iff
    {graph : CallGraph}
    {marked : List Text}
    (known : marked ⊆ graph.map Prod.fst)
    (name : Text) :
    graph.Reaches (graph.grow marked) name ↔ graph.Reaches marked name := by
  constructor
  · rintro ⟨target, grown, path⟩
    rcases mem_grow_iff.mp grown with ⟨_, isMarked⟩ | ⟨callee, isMarked, called⟩
    · exact ⟨target, isMarked, path⟩
    · exact ⟨callee, isMarked, path.tail called⟩
  · rintro ⟨target, isMarked, path⟩
    exact ⟨target, subset_grow known isMarked, path⟩

/-- Names that no longer grow hold every caller of theirs. -/
theorem mem_of_calls
    {graph : CallGraph}
    {marked : List Text}
    (distinct : marked.Nodup)
    (known : marked ⊆ graph.map Prod.fst)
    (full : ¬marked.length < (graph.grow marked).length)
    {caller callee : Text}
    (called : graph.Calls caller callee)
    (isMarked : callee ∈ marked) :
    caller ∈ marked := by
  have same : marked.Perm (graph.grow marked) :=
    (List.subperm_of_subset distinct (subset_grow known)).perm_of_length_le (Nat.le_of_not_lt full)
  exact same.mem_iff.mpr (mem_grow_iff.mpr (.inr ⟨callee, isMarked, called⟩))

/-- Growing as long as that adds a name finds the names that reach the marked ones. -/
theorem mem_reach_iff
    {graph : CallGraph}
    {marked : List Text}
    (distinctNames : (graph.map Prod.fst).Nodup)
    (distinct : marked.Nodup)
    (known : marked ⊆ graph.map Prod.fst)
    (name : Text) :
    name ∈ graph.reach marked ↔ graph.Reaches marked name := by
  fun_induction graph.reach marked with
  | case1 marked grows inductionHypothesis =>
      have sublist := graph.grow_sublist marked
      rw [inductionHypothesis (distinctNames.sublist sublist) sublist.subset,
        reaches_grow_iff known]
  | case2 marked full =>
      constructor
      · intro isMarked
        exact ⟨name, isMarked, .refl⟩
      · rintro ⟨target, isMarked, path⟩
        -- back along the path, as every caller of a marked name is marked by now
        induction path using Relation.ReflTransGen.head_induction_on with
        | refl => exact isMarked
        | head called _ inductionHypothesis =>
            exact mem_of_calls distinct known full called inductionHypothesis

end CallGraph

namespace Templates

/-- The template that is found for a name has that name. -/
theorem name_eq_of_find?
    {templates : Templates}
    {name : Text}
    {template : Template}
    (found : templates.find? name = some template) :
    template.name = name :=
  of_decide_eq_true (List.find?_some (p := fun other : Template => other.name = name) found)

/-- A template that prints is reached from the name through calls. -/
def ReachesPrint (templates : Templates) (name : Text) : Prop :=
  ∃ printing ∈ templates, Print.form.occursIn printing.text = true ∧
    Relation.ReflTransGen templates.callGraph.Calls name printing.name

/-- Promotion changes nothing but whether a template produces output. -/
theorem exists_of_mem_promote
    {templates : Templates}
    {template : Template}
    (member : template ∈ templates.promote) :
    ∃ source ∈ templates, ∃ output,
      template = { source with signature := { source.signature with output } } := by
  obtain ⟨source, isSource, rfl⟩ := List.mem_map.mp member
  refine ⟨source, isSource, ?_⟩
  split
  · exact ⟨.producing, rfl⟩
  · exact ⟨source.signature.output, rfl⟩

theorem map_promote
    {α : Type}
    {f : Template → α}
    (ignores : ∀ template output,
      f { template with signature := { template.signature with output } } = f template)
    (templates : Templates) :
    templates.promote.map f = templates.map f := by
  rw [promote, List.map_map]
  refine List.map_congr_left fun template _ => ?_
  simp only [Function.comp]
  split
  · exact ignores template .producing
  · rfl

theorem callGraph_promote (templates : Templates) :
    templates.promote.callGraph = templates.callGraph :=
  map_promote (fun _ _ => rfl) templates

theorem map_fst_callGraph (templates : Templates) :
    templates.callGraph.map Prod.fst = templates.map Template.name := by
  rw [callGraph, List.map_map]
  rfl

theorem reachesPrint_promote_iff (templates : Templates) (name : Text) :
    templates.promote.ReachesPrint name ↔ templates.ReachesPrint name := by
  have shown (list : Templates) : list.ReachesPrint name ↔
      ∃ entry ∈ list.map fun template => (template.name, template.text),
        Print.form.occursIn entry.2 = true ∧
          Relation.ReflTransGen list.callGraph.Calls name entry.1 := by
    simp [ReachesPrint]
  rw [shown, shown, map_promote (fun _ _ => rfl), callGraph_promote]

/-- If the templates that print are the producing ones, those that reach a producing one reach a
print. -/
theorem reaches_producing_iff
    {templates : Templates}
    (shown : ∀ template ∈ templates,
      template.signature.isProducing = Print.form.occursIn template.text)
    (name : Text) :
    templates.callGraph.Reaches (templates.producing.map Template.name) name ↔
      templates.ReachesPrint name := by
  constructor
  · rintro ⟨_, member, path⟩
    obtain ⟨printing, isProducing, rfl⟩ := List.mem_map.mp member
    obtain ⟨isTemplate, producing⟩ := List.mem_filter.mp isProducing
    exact ⟨printing, isTemplate, shown printing isTemplate ▸ producing, path⟩
  · rintro ⟨printing, isTemplate, prints, path⟩
    rw [← shown printing isTemplate] at prints
    exact ⟨printing.name, List.mem_map_of_mem (List.mem_filter.mpr ⟨isTemplate, prints⟩), path⟩

/-- A promoted template produces output exactly if it reaches one that did so before. -/
theorem isProducing_promote_iff_reaches
    {templates : Templates}
    (distinct : (templates.map Template.name).Nodup)
    {template : Template}
    (member : template ∈ templates.promote) :
    template.signature.isProducing = true ↔
      templates.callGraph.Reaches (templates.producing.map Template.name) template.name := by
  have sublist : (templates.producing.map Template.name).Sublist
      (templates.callGraph.map Prod.fst) := by
    rw [map_fst_callGraph]
    exact List.filter_sublist.map Template.name
  rw [← map_fst_callGraph] at distinct
  have reached (name : Text) := CallGraph.mem_reach_iff distinct (distinct.sublist sublist)
    sublist.subset name
  obtain ⟨source, isSource, rfl⟩ := List.mem_map.mp member
  split
  next isReached => exact iff_of_true rfl ((reached source.name).mp isReached)
  next notReached =>
    rw [reached] at notReached
    refine iff_of_false (fun producing => notReached ?_) notReached
    exact ⟨source.name, List.mem_map_of_mem (List.mem_filter.mpr ⟨isSource, producing⟩), .refl⟩

/-- A promoted template produces output exactly if it reaches a template that prints. -/
theorem isProducing_promote_iff
    {templates : Templates}
    (distinct : (templates.map Template.name).Nodup)
    (shown : ∀ template ∈ templates,
      template.signature.isProducing = Print.form.occursIn template.text)
    {template : Template}
    (member : template ∈ templates.promote) :
    template.signature.isProducing = true ↔ templates.promote.ReachesPrint template.name := by
  rw [reachesPrint_promote_iff, ← reaches_producing_iff shown,
    isProducing_promote_iff_reaches distinct member]

/-- A template that calls one that reaches a print reaches it too. -/
theorem ReachesPrint.of_mem_callees
    {templates : Templates}
    {caller : Template}
    {callee : Text}
    (reaches : templates.ReachesPrint callee)
    (member : caller ∈ templates)
    (called : callee ∈ caller.text.callees) :
    templates.ReachesPrint caller.name := by
  obtain ⟨printing, isTemplate, prints, path⟩ := reaches
  refine ⟨printing, isTemplate, prints, .head ⟨_, ?_, called⟩ path⟩
  exact List.mem_map_of_mem (f := fun template => (template.name, template.text.callees)) member

end Templates
end OutputThreading
