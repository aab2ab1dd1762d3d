import Mathlib.Data.List.Nodup
import OutputThreading.Proofs.Template.Promotion

/-!
# Promotion in place

The callers of producing templates can also be found by going over the call graph again and again,
marking templates in the table that is being read, until nothing changes.  Every visit of an entry
leaves the table alone or marks one pure template (`Templates.visit_cases`).  So every sweep but the
last one leaves fewer pure templates, and the loop ends (`Templates.exists_settles`); whatever is
marked reaches a producing template, and when nothing changes any more, whatever reaches one is
marked.  The order of the visits does not show in the result, which is that of promotion
(`Templates.Settles.eq_promote`).
-/

namespace OutputThreading

namespace Template

/-- The template with the given output in its signature. -/
def withOutput (template : Template) (output : OutputKind) : Template :=
  { template with signature := { template.signature with output } }

/-- Two templates that differ at most in whether they produce output are told apart by that. -/
theorem eq_of_withOutput_eq
    {first second : Template}
    (same : first.withOutput .pure = second.withOutput .pure)
    (output : first.signature.isProducing = true ↔ second.signature.isProducing = true) :
    first = second := by
  have outputs : first.signature.output = second.signature.output := by
    rw [Signature.isProducing, Signature.isProducing, decide_eq_true_iff, decide_eq_true_iff]
      at output
    cases first_eq : first.signature.output <;> cases second_eq : second.signature.output <;>
      simp_all
  calc
    first = (first.withOutput .pure).withOutput first.signature.output := rfl
    _ = (second.withOutput .pure).withOutput second.signature.output := by rw [same, outputs]
    _ = second := rfl

end Template

namespace Templates

/-! ## The loop -/

/-- The template of a name is defined and produces output. -/
def produces (templates : Templates) (name : Text) : Bool :=
  (templates.find? name).any fun template => template.signature.isProducing

/-- Visit the callees of a name: if one of them produces output, the template of that name is marked
in the table.  Along with the table goes whether anything was marked. -/
def visit (state : Templates × Bool) (entry : Text × List Text) : Templates × Bool :=
  match state.1.find? entry.1 with
  | none => state
  | some template =>
      if entry.2.any state.1.produces && !template.signature.isProducing then
        (state.1.insert (template.withOutput .producing), true)
      else state

/-- Visit all entries of a call graph in turn, each with the marks set by those in front of it. -/
def sweep (graph : CallGraph) (templates : Templates) : Templates × Bool :=
  graph.foldl visit (templates, false)

/-- Sweeping a table until nothing is marked any more takes a number of sweeps and ends in a
table. -/
inductive Settles (graph : CallGraph) : Nat → Templates → Templates → Prop
  /-- The sweep marks nothing. -/
  | stop {templates result : Templates} :
      sweep graph templates = (result, false) → Settles graph 1 templates result
  /-- The sweep marks something, and the loop goes on with its table. -/
  | again {templates swept result : Templates} {sweeps : Nat} :
      sweep graph templates = (swept, true) → Settles graph sweeps swept result →
      Settles graph (sweeps + 1) templates result

/-! ## One visit -/

/-- A template that is found for a name is the first one of that name in the table, and another one
of that name takes its place. -/
theorem exists_insert_eq_append
    {templates : Templates}
    {name : Text}
    {template : Template}
    (found : templates.find? name = some template) :
    ∃ before behind, templates = before ++ template :: behind ∧
      ∀ marked : Template, marked.name = name →
        templates.insert marked = before ++ marked :: behind := by
  induction templates with
  | nil => cases found
  | cons first others inductionHypothesis =>
      by_cases same : first.name = name
      · obtain rfl : first = template := by simpa [find?, same] using found
        refine ⟨[], others, rfl, fun marked named => ?_⟩
        rw [insert, if_pos (same.trans named.symm), List.nil_append]
      · obtain ⟨before, behind, rfl, inserted⟩ :=
          inductionHypothesis (by simpa [find?, same] using found)
        refine ⟨first :: before, behind, rfl, fun marked named => ?_⟩
        rw [insert, if_neg fun equal => same (equal.trans named), inserted marked named,
          List.cons_append]

/-- A visit changes nothing, as no callee produces output, or the caller does or is not defined; or
it marks the caller and says so. -/
theorem visit_cases (templates : Templates) (changed : Bool) (entry : Text × List Text) :
    visit (templates, changed) entry = (templates, changed) ∧
        (entry.2.any templates.produces = true →
          entry.1 ∈ templates.map Template.name → templates.produces entry.1 = true) ∨
      ∃ before template behind, templates = before ++ template :: behind ∧
        template.name = entry.1 ∧ template.signature.isProducing = false ∧
        entry.2.any templates.produces = true ∧
        visit (templates, changed) entry =
          (before ++ template.withOutput .producing :: behind, true) := by
  cases found : templates.find? entry.1 with
  | none =>
      refine .inl ⟨by simp only [visit, found], fun _ defined => ?_⟩
      obtain ⟨template, member, named⟩ := List.mem_map.mp defined
      exact absurd (decide_eq_true named) (List.find?_eq_none.mp found template member)
  | some template =>
      by_cases marks :
          (entry.2.any templates.produces && !template.signature.isProducing) = true
      · obtain ⟨before, behind, templates_eq, inserted⟩ := exists_insert_eq_append found
        obtain ⟨callee, isPure⟩ := Bool.and_eq_true_iff.mp marks
        rw [Bool.not_eq_true'] at isPure
        have named := name_eq_of_find? found
        refine .inr ⟨before, template, behind, templates_eq, named, isPure, callee, ?_⟩
        simp only [visit, found, if_pos marks, inserted (template.withOutput .producing) named]
      · refine .inl ⟨by simp only [visit, found, if_neg marks], fun callee _ => ?_⟩
        rw [callee, Bool.true_and, Bool.not_eq_true', Bool.not_eq_false] at marks
        simp only [produces, found, Option.any_some, marks]

/-- Marking keeps everything of a table but the outputs. -/
theorem map_visit
    {α : Type}
    {f : Template → α}
    (ignores : ∀ template output, f (template.withOutput output) = f template)
    (state : Templates × Bool)
    (entry : Text × List Text) :
    (visit state entry).1.map f = state.1.map f := by
  obtain ⟨templates, changed⟩ := state
  obtain ⟨unchanged, _⟩ | ⟨before, template, behind, rfl, _, _, _, marked⟩ :=
    visit_cases templates changed entry
  · rw [unchanged]
  · rw [marked, List.map_append, List.map_append, List.map_cons, List.map_cons, ignores]

/-- A visit that marks a template leaves one pure template less. -/
theorem length_pure_visit_le (state : Templates × Bool) (entry : Text × List Text) :
    (visit state entry).1.pure.length + (visit state entry).2.toNat ≤
      state.1.pure.length + state.2.toNat := by
  obtain ⟨templates, changed⟩ := state
  obtain ⟨unchanged, _⟩ | ⟨before, template, behind, rfl, _, isPure, _, marked⟩ :=
    visit_cases templates changed entry
  · simp only [unchanged, Nat.le_refl]
  · have producing : (template.withOutput .producing).signature.isProducing = true := rfl
    rw [marked]
    simp only [pure, List.filter_append, List.filter_cons, isPure, producing, List.length_append,
      Bool.not_false, Bool.not_true, if_true, Bool.false_eq_true, if_false, List.length_cons,
      Bool.toNat_true]
    omega

/-- A template that produces output still does after a visit. -/
theorem mem_map_name_producing_visit
    {state : Templates × Bool}
    {name : Text}
    (producing : name ∈ state.1.producing.map Template.name)
    (entry : Text × List Text) :
    name ∈ (visit state entry).1.producing.map Template.name := by
  obtain ⟨templates, changed⟩ := state
  obtain ⟨unchanged, _⟩ | ⟨before, template, behind, rfl, _, isPure, _, marked⟩ :=
    visit_cases templates changed entry
  · rw [unchanged]
    exact producing
  · rw [marked]
    simp only [Templates.producing, List.filter_append, List.filter_cons, isPure, List.map_append,
      Bool.false_eq_true, if_false, List.mem_append] at producing ⊢
    exact producing.imp_right fun member => by
      split <;> simp [member]

/-- A visit marks only names that reach a producing template. -/
theorem reaches_visit
    {graph : CallGraph}
    {marked : List Text}
    {state : Templates × Bool}
    (reaches : ∀ template ∈ state.1,
      template.signature.isProducing = true → graph.Reaches marked template.name)
    {entry : Text × List Text}
    (isEntry : entry ∈ graph) :
    ∀ template ∈ (visit state entry).1,
      template.signature.isProducing = true → graph.Reaches marked template.name := by
  obtain ⟨templates, changed⟩ := state
  obtain ⟨unchanged, _⟩ | ⟨before, template, behind, rfl, named, _, callees, visited⟩ :=
    visit_cases templates changed entry
  · rw [unchanged]
    exact reaches
  · obtain ⟨callee, isCallee, produced⟩ := List.any_eq_true.mp callees
    rw [produces, Option.any_eq_true] at produced
    obtain ⟨called, found, producing⟩ := produced
    obtain ⟨target, isMarked, path⟩ := reaches called (List.mem_of_find?_eq_some found) producing
    rw [name_eq_of_find? found] at path
    rw [visited]
    rw [List.forall_mem_append, List.forall_mem_cons] at reaches ⊢
    refine ⟨reaches.1, fun _ => ⟨target, isMarked, .head ⟨entry.2, ?_, isCallee⟩ path⟩, reaches.2.2⟩
    exact named ▸ isEntry

/-! ## One sweep -/

/-- A sweep keeps everything of a table but the outputs. -/
theorem map_sweep
    {α : Type}
    {f : Template → α}
    (ignores : ∀ template output, f (template.withOutput output) = f template)
    (graph : CallGraph)
    (templates : Templates) :
    (sweep graph templates).1.map f = templates.map f :=
  List.foldlRecOn graph visit (motive := fun state => state.1.map f = templates.map f) rfl
    fun state same entry _ => (map_visit ignores state entry).trans same

/-- A sweep that marks a template leaves fewer pure templates. -/
theorem length_pure_sweep_le (graph : CallGraph) (templates : Templates) :
    (sweep graph templates).1.pure.length + (sweep graph templates).2.toNat ≤
      templates.pure.length :=
  List.foldlRecOn graph visit
    (motive := fun state => state.1.pure.length + state.2.toNat ≤ templates.pure.length)
    (Nat.le_refl _) fun state bound entry _ =>
      Nat.le_trans (length_pure_visit_le state entry) bound

/-- A template that produces output still does after a sweep. -/
theorem mem_map_name_producing_sweep
    {templates : Templates}
    {name : Text}
    (producing : name ∈ templates.producing.map Template.name)
    (graph : CallGraph) :
    name ∈ (sweep graph templates).1.producing.map Template.name :=
  List.foldlRecOn graph visit
    (motive := fun state => name ∈ state.1.producing.map Template.name) producing
    fun _ producing entry _ => mem_map_name_producing_visit producing entry

/-- A sweep marks only names that reach a producing template. -/
theorem reaches_sweep
    {graph : CallGraph}
    {marked : List Text}
    {templates : Templates}
    (reaches : ∀ template ∈ templates,
      template.signature.isProducing = true → graph.Reaches marked template.name) :
    ∀ template ∈ (sweep graph templates).1,
      template.signature.isProducing = true → graph.Reaches marked template.name :=
  List.foldlRecOn graph visit
    (motive := fun state => ∀ template ∈ state.1,
      template.signature.isProducing = true → graph.Reaches marked template.name) reaches
    fun _ reaches _ isEntry => reaches_visit reaches isEntry

/-- That something was marked is not forgotten. -/
theorem snd_foldl_visit (graph : CallGraph) (templates : Templates) :
    (graph.foldl visit (templates, true)).2 = true := by
  refine List.foldlRecOn graph visit (motive := fun state => state.2 = true)
    (show (templates, true).2 = true from rfl) ?_
  rintro ⟨table, changed⟩ wasChanged entry _
  obtain ⟨same, _⟩ | ⟨_, _, _, _, _, _, _, marked⟩ := visit_cases table changed entry
  · rw [same]
    exact wasChanged
  · rw [marked]

/-- A sweep that marks nothing leaves the table alone, and every defined caller of a producing
template produces output in it. -/
theorem closed_of_sweep_eq
    {graph : CallGraph}
    {templates result : Templates}
    (unchanged : sweep graph templates = (result, false)) :
    result = templates ∧ ∀ entry ∈ graph, entry.2.any templates.produces = true →
      entry.1 ∈ templates.map Template.name → templates.produces entry.1 = true := by
  suffices run : ∀ changed, graph.foldl visit (templates, changed) = (result, false) →
      result = templates ∧ ∀ entry ∈ graph, entry.2.any templates.produces = true →
        entry.1 ∈ templates.map Template.name → templates.produces entry.1 = true from
    run false unchanged
  clear unchanged
  induction graph with
  | nil =>
      rintro changed ended
      exact ⟨(Prod.mk.inj ended).1.symm, fun _ member => absurd member List.not_mem_nil⟩
  | cons entry graph inductionHypothesis =>
      intro changed ended
      rw [List.foldl_cons] at ended
      obtain ⟨same, closed⟩ | ⟨_, _, _, _, _, _, _, marked⟩ :=
        visit_cases templates changed entry
      · rw [same] at ended
        obtain ⟨result_eq, others⟩ := inductionHypothesis changed ended
        exact ⟨result_eq, List.forall_mem_cons.mpr ⟨closed, others⟩⟩
      · rw [marked] at ended
        have flag := congrArg Prod.snd ended
        rw [snd_foldl_visit] at flag
        cases flag

/-! ## All sweeps -/

/-- The loop ends, after at most one sweep for each pure template and one that marks nothing. -/
theorem exists_settles (graph : CallGraph) (templates : Templates) :
    ∃ sweeps ≤ templates.pure.length + 1, ∃ result, Settles graph sweeps templates result := by
  induction size : templates.pure.length using Nat.strongRecOn generalizing templates with
  | _ count inductionHypothesis =>
      have fewer := length_pure_sweep_le graph templates
      obtain ⟨⟨swept, changed⟩, swept_eq⟩ : ∃ state, sweep graph templates = state := ⟨_, rfl⟩
      rw [swept_eq, size] at fewer
      cases changed with
      | false => exact ⟨1, by omega, swept, .stop swept_eq⟩
      | true =>
          rw [Bool.toNat_true] at fewer
          obtain ⟨sweeps, bound, result, settles⟩ := inductionHypothesis _ fewer swept rfl
          exact ⟨sweeps + 1, by omega, result, .again swept_eq settles⟩

namespace Settles

variable {graph : CallGraph} {sweeps : Nat} {templates result : Templates}

/-- The loop ends in one way only. -/
theorem unique
    {otherSweeps : Nat}
    {other : Templates}
    (settles : Settles graph sweeps templates result)
    (others : Settles graph otherSweeps templates other) :
    otherSweeps = sweeps ∧ other = result := by
  induction settles generalizing otherSweeps with
  | stop swept =>
      cases others with
      | stop sweptOther => exact ⟨rfl, (Prod.mk.inj (sweptOther.symm.trans swept)).1⟩
      | again sweptOther => cases swept.symm.trans sweptOther
  | again swept _ inductionHypothesis =>
      cases others with
      | stop sweptOther => cases swept.symm.trans sweptOther
      | again sweptOther others =>
          obtain rfl := (Prod.mk.inj (sweptOther.symm.trans swept)).1
          obtain ⟨rfl, result_eq⟩ := inductionHypothesis others
          exact ⟨rfl, result_eq⟩

/-- What every sweep keeps is kept by the loop. -/
theorem preserves
    (settles : Settles graph sweeps templates result)
    (property : Templates → Prop)
    (step : ∀ templates, property templates → property (sweep graph templates).1)
    (initially : property templates) :
    property result := by
  induction settles with
  | stop swept =>
      have kept := step _ initially
      rwa [swept] at kept
  | again swept _ inductionHypothesis =>
      have kept := step _ initially
      rw [swept] at kept
      exact inductionHypothesis kept

/-- In the table that the loop ends in, every defined caller of a producing template produces
output. -/
theorem closed
    (settles : Settles graph sweeps templates result)
    {entry : Text × List Text}
    (isEntry : entry ∈ graph)
    (callee : entry.2.any result.produces = true)
    (defined : entry.1 ∈ result.map Template.name) :
    result.produces entry.1 = true := by
  induction settles with
  | stop swept =>
      obtain ⟨rfl, closed⟩ := closed_of_sweep_eq swept
      exact closed entry isEntry callee defined
  | again _ _ inductionHypothesis => exact inductionHypothesis callee defined

end Settles

/-! ## The result -/

theorem produces_name_iff
    {templates : Templates}
    (distinct : (templates.map Template.name).Nodup)
    {template : Template}
    (member : template ∈ templates) :
    templates.produces template.name = true ↔ template.signature.isProducing = true := by
  have found : templates.find? template.name = some template := by
    cases found : templates.find? template.name with
    | none => exact absurd (decide_eq_true rfl) (List.find?_eq_none.mp found template member)
    | some other =>
        rw [List.inj_on_of_nodup_map distinct (List.mem_of_find?_eq_some found) member
          (name_eq_of_find? found)]
  rw [produces, found, Option.any_some]

/-- Two tables that differ at most in which templates produce output, and agree in that by name, are
equal. -/
theorem eq_of_map_withOutput_eq
    {first second : Templates}
    {produces : Text → Prop}
    (same : first.map (Template.withOutput · .pure) = second.map (Template.withOutput · .pure))
    (inFirst : ∀ template ∈ first,
      template.signature.isProducing = true ↔ produces template.name)
    (inSecond : ∀ template ∈ second,
      template.signature.isProducing = true ↔ produces template.name) :
    first = second := by
  induction first generalizing second with
  | nil => exact (List.map_eq_nil_iff.mp same.symm).symm
  | cons template first inductionHypothesis =>
      cases second with
      | nil => cases same
      | cons other second =>
          rw [List.forall_mem_cons] at inFirst inSecond
          rw [List.map_cons, List.map_cons, List.cons.injEq] at same
          have named : (template.withOutput .pure).name = (other.withOutput .pure).name :=
            congrArg Template.name same.1
          have output := inSecond.1.trans (named ▸ inFirst.1.symm)
          rw [Template.eq_of_withOutput_eq same.1 output.symm,
            inductionHypothesis same.2 inFirst.2 inSecond.2]

/-- The loop over the call graph of a table with different names ends in the promoted table. -/
theorem Settles.eq_promote
    {templates result : Templates}
    {sweeps : Nat}
    (distinct : (templates.map Template.name).Nodup)
    (settles : Settles templates.callGraph sweeps templates result) :
    result = templates.promote := by
  let marked := templates.producing.map Template.name
  have names : result.map Template.name = templates.map Template.name :=
    settles.preserves (fun table => table.map Template.name = _)
      (fun table same => (map_sweep (fun _ _ => rfl) _ table).trans same) rfl
  have same : result.map (Template.withOutput · .pure) =
      templates.map (Template.withOutput · .pure) :=
    settles.preserves (fun table => table.map (Template.withOutput · .pure) = _)
      (fun table same => (map_sweep (fun _ _ => rfl) _ table).trans same) rfl
  have sound : ∀ template ∈ result, template.signature.isProducing = true →
      templates.callGraph.Reaches marked template.name := by
    refine settles.preserves (fun table => ∀ template ∈ table,
      template.signature.isProducing = true → templates.callGraph.Reaches marked template.name)
      (fun table => reaches_sweep) fun template member producing => ?_
    exact ⟨template.name, List.mem_map_of_mem (List.mem_filter.mpr ⟨member, producing⟩), .refl⟩
  have kept : marked ⊆ result.producing.map Template.name :=
    settles.preserves (fun table => marked ⊆ table.producing.map Template.name)
      (fun table kept name isMarked => mem_map_name_producing_sweep (kept isMarked) _)
      (List.Subset.refl marked)
  rw [← names] at distinct
  have complete (name : Text) (reaches : templates.callGraph.Reaches marked name) :
      result.produces name = true := by
    obtain ⟨target, isMarked, path⟩ := reaches
    -- back along the path, from a template that was producing at first
    induction path using Relation.ReflTransGen.head_induction_on with
    | refl =>
        obtain ⟨template, member, rfl⟩ := List.mem_map.mp (kept isMarked)
        obtain ⟨isResult, producing⟩ := List.mem_filter.mp member
        exact (produces_name_iff distinct isResult).mpr producing
    | head called _ inductionHypothesis =>
        obtain ⟨callees, isEntry, isCallee⟩ := called
        refine settles.closed isEntry (List.any_eq_true.mpr ⟨_, isCallee, inductionHypothesis⟩) ?_
        rw [names, ← map_fst_callGraph]
        exact List.mem_map_of_mem isEntry
  refine eq_of_map_withOutput_eq (same.trans (map_promote (fun _ _ => rfl) templates).symm)
    (fun template member => ⟨sound template member, fun reaches => ?_⟩)
    (fun template member => isProducing_promote_iff_reaches (names ▸ distinct) member)
  exact (produces_name_iff distinct member).mp (complete _ reaches)

end Templates
end OutputThreading
