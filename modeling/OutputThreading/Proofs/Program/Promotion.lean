import Mathlib.Data.List.Chain
import OutputThreading.Proofs.Program.Relocation
import OutputThreading.Proofs.Template.Sweep

/-!
# Promotion of an extracted program

The templates of an extracted program that produce output are those at the start of a chain of
calls whose last template prints.  They are found by sweeping the table of definitions, which takes
a bounded number of sweeps for any table and call graph, and changes nothing else.  As the chains do
not depend on the order of the definitions, neither do the signatures
(`Program.ofText_promotes_callers`).
-/

namespace OutputThreading
namespace Templates

/-! ## Chains of calls -/

/-- Templates of a table, each of which calls the next one. -/
structure IsCallChain (templates : Templates) (chain : List Template) : Prop where
  /-- Every link of the chain is in the table. -/
  known : ∀ template ∈ chain, template ∈ templates
  /-- Every link calls the one behind it. -/
  calls : chain.IsChain fun caller callee => callee.name ∈ caller.text.callees

/-- A path through the call graph of a table is a chain of calls. -/
theorem exists_isCallChain
    {templates : Templates}
    {name : Text}
    {last : Template}
    (member : last ∈ templates)
    (path : Relation.ReflTransGen templates.callGraph.Calls name last.name) :
    ∃ template chain, template.name = name ∧ templates.IsCallChain (template :: chain) ∧
      (template :: chain).getLast? = some last := by
  induction path using Relation.ReflTransGen.head_induction_on with
  | refl => exact ⟨last, [], rfl, ⟨by simpa using member, .singleton last⟩, rfl⟩
  | head called _ inductionHypothesis =>
      obtain ⟨callee, chain, rfl, isChain, ends⟩ := inductionHypothesis
      obtain ⟨callees, isEntry, isCallee⟩ := called
      obtain ⟨caller, isCaller, entry_eq⟩ := List.mem_map.mp isEntry
      obtain ⟨rfl, rfl⟩ := Prod.mk.inj entry_eq
      refine ⟨caller, callee :: chain, rfl, ⟨?_, .cons_cons isCallee isChain.calls⟩, ends⟩
      exact List.forall_mem_cons.mpr ⟨isCaller, isChain.known⟩

/-- The first template of a chain whose last one prints reaches a print. -/
theorem IsCallChain.reachesPrint
    {templates : Templates}
    {template last : Template}
    {chain : List Template}
    (isChain : templates.IsCallChain (template :: chain))
    (ends : (template :: chain).getLast? = some last)
    (prints : Print.form.occursIn last.text = true) :
    templates.ReachesPrint template.name := by
  induction chain generalizing template with
  | nil =>
      obtain rfl : template = last := Option.some.inj ends
      exact ⟨template, isChain.known template List.mem_cons_self, prints, .refl⟩
  | cons callee chain inductionHypothesis =>
      obtain ⟨isCallee, calls⟩ := List.isChain_cons_cons.mp isChain.calls
      obtain ⟨member, known⟩ := List.forall_mem_cons.mp isChain.known
      exact (inductionHypothesis ⟨known, calls⟩ ends).of_mem_callees member isCallee

/-- A template reaches a print exactly if it starts a chain of calls whose last template prints. -/
theorem reachesPrint_iff_exists_isCallChain
    {templates : Templates}
    (distinct : (templates.map Template.name).Nodup)
    {template : Template}
    (member : template ∈ templates) :
    templates.ReachesPrint template.name ↔
      ∃ chain last, templates.IsCallChain (template :: chain) ∧
        (template :: chain).getLast? = some last ∧ Print.form.occursIn last.text = true := by
  constructor
  · rintro ⟨last, isLast, prints, path⟩
    obtain ⟨first, chain, named, isChain, ends⟩ := exists_isCallChain isLast path
    obtain rfl := List.inj_on_of_nodup_map distinct (isChain.known first List.mem_cons_self)
      member named
    exact ⟨chain, last, isChain, ends, prints⟩
  · rintro ⟨chain, last, isChain, ends, prints⟩
    exact isChain.reachesPrint ends prints

/-! ## The order of definitions -/

/-- Which names reach a print depends on the definitions only, not on their order. -/
theorem ReachesPrint.of_perm
    {first second : Templates}
    (same : (first.map fun template => (template.name, template.text)).Perm
      (second.map fun template => (template.name, template.text)))
    {name : Text}
    (reaches : first.ReachesPrint name) :
    second.ReachesPrint name := by
  obtain ⟨printing, member, prints, path⟩ := reaches
  have moves (template : Template) (member : template ∈ first) :
      ∃ moved ∈ second, moved.name = template.name ∧ moved.text = template.text := by
    obtain ⟨moved, isMoved, moved_eq⟩ :=
      List.mem_map.mp (same.mem_iff.mp (List.mem_map_of_mem member))
    exact ⟨moved, isMoved, Prod.mk.inj moved_eq⟩
  have calls (caller callee : Text) (called : first.callGraph.Calls caller callee) :
      second.callGraph.Calls caller callee := by
    obtain ⟨callees, isEntry, isCallee⟩ := called
    obtain ⟨template, isTemplate, entry_eq⟩ := List.mem_map.mp isEntry
    obtain ⟨rfl, rfl⟩ := Prod.mk.inj entry_eq
    obtain ⟨other, isOther, named, text_eq⟩ := moves template isTemplate
    refine ⟨other.text.callees, ?_, text_eq ▸ isCallee⟩
    exact List.mem_map.mpr ⟨other, isOther, Prod.ext named rfl⟩
  obtain ⟨moved, isMoved, named, text_eq⟩ := moves printing member
  exact ⟨moved, isMoved, text_eq ▸ prints, named ▸ Relation.ReflTransGen.mono calls _ _ path⟩

end Templates

namespace Program

/-- Before promotion every template has the signature that its text shows. -/
theorem signature_of_takeDefinitions
    {source : Text}
    {found : Program}
    (taken : takeDefinitions 1 (Marker.form.split source) = .ok found)
    {template : Template}
    (member : template ∈ found.templates) :
    template.signature = Signature.ofText template.text := by
  have whole : Marker.form.split (Marker.form.join (Marker.form.split source)) =
      Marker.form.split source := by
    rw [Form.join_split]
  obtain ⟨partition, rfl⟩ := exists_partition_of_takeDefinitions whole taken
  obtain ⟨segment, _, _, rfl⟩ := partition.exists_of_mem_definitions member
  rfl

/-- The templates of an extracted program have different names. -/
theorem nodup_map_name_of_ofText
    {source : Text}
    {program : Program}
    (extracted : ofText source = .ok program) :
    (program.templates.map Template.name).Nodup := by
  obtain ⟨found, _, equal⟩ := bind_eq_ok_iff.mp extracted
  obtain rfl := pure_eq_ok_iff.mp equal
  rw [Templates.map_promote fun _ _ => rfl]
  exact Templates.nodup_map_name_keepFirst _

/-- The signature of an extracted template: its text shows what it returns, and it produces output
if it reaches a print. -/
theorem signature_of_ofText
    {source : Text}
    {program : Program}
    (extracted : ofText source = .ok program)
    {template : Template}
    (member : template ∈ program.templates) :
    template.signature.returns = (Signature.ofText template.text).returns ∧
      (template.signature.output = .producing ↔ program.templates.ReachesPrint template.name) := by
  constructor
  · obtain ⟨found, taken, equal⟩ := bind_eq_ok_iff.mp extracted
    obtain rfl := pure_eq_ok_iff.mp equal
    obtain ⟨kept, isKept, output, rfl⟩ := Templates.exists_of_mem_promote member
    have shown := signature_of_takeDefinitions taken (Templates.mem_of_mem_keepFirst isKept)
    exact (congrArg Signature.returns shown : kept.signature.returns = _)
  · rw [← isProducing_iff_of_ofText extracted member, Signature.isProducing, decide_eq_true_iff]

/-- Programs with the same definitions in different orders have the same signatures. -/
theorem perm_signatures_of_perm
    {firstSource secondSource : Text}
    {first second : Program}
    (firstExtracted : ofText firstSource = .ok first)
    (secondExtracted : ofText secondSource = .ok second)
    (same : (first.templates.map fun template => (template.name, template.text)).Perm
      (second.templates.map fun template => (template.name, template.text))) :
    (first.templates.map fun template =>
        (template.name, template.text, template.signature)).Perm
      (second.templates.map fun template =>
        (template.name, template.text, template.signature)) := by
  classical
  let sign (entry : Text × Text) : Text × Text × Signature :=
    (entry.1, entry.2, {
      output := if first.templates.ReachesPrint entry.1 then .producing else .pure
      returns := (Signature.ofText entry.2).returns })
  have signed (program : Program)
      (signatures : ∀ template ∈ program.templates,
        template.signature.returns = (Signature.ofText template.text).returns ∧
          (template.signature.output = .producing ↔ first.templates.ReachesPrint template.name)) :
      (program.templates.map fun template => (template.name, template.text, template.signature)) =
        (program.templates.map fun template => (template.name, template.text)).map sign := by
    rw [List.map_map]
    refine List.map_congr_left fun template member => ?_
    obtain ⟨returns, output⟩ := signatures template member
    have output_eq : template.signature.output =
        if first.templates.ReachesPrint template.name then .producing else .pure := by
      cases kind : template.signature.output with
      | producing => rw [if_pos (output.mp kind)]
      | pure => rw [if_neg fun reaches => by cases kind.symm.trans (output.mpr reaches)]
    simp only [Function.comp, sign, ← returns, ← output_eq]
  rw [signed first fun template => signature_of_ofText firstExtracted, signed second]
  · exact same.map sign
  · intro template member
    obtain ⟨returns, output⟩ := signature_of_ofText secondExtracted member
    exact ⟨returns, output.trans ⟨.of_perm same.symm, .of_perm same⟩⟩

/-- Extraction promotes exactly the callers of templates that print, and it finds them with a loop
over the call graph that always ends. -/
theorem ofText_promotes_callers
    {source : Text}
    {program : Program}
    (extracted : ofText source = .ok program) :
    (∃ found table,
      takeDefinitions 1 (Marker.form.split source) = .ok found ∧
      table = found.templates.keepFirst ∧
      (∀ template ∈ table, template.signature = Signature.ofText template.text) ∧
      (∃ sweeps ≤ table.pure.length + 1,
        Templates.Settles table.callGraph sweeps table program.templates) ∧
      program.templates.map (fun template =>
          (template.name, template.text, template.line, template.signature.returns)) =
        table.map fun template =>
          (template.name, template.text, template.line, template.signature.returns)) ∧
    (∀ (graph : CallGraph) (table : Templates), ∃ sweeps ≤ table.pure.length + 1, ∃ result,
      Templates.Settles graph sweeps table result ∧
        ∀ otherSweeps other, Templates.Settles graph otherSweeps table other →
          otherSweeps = sweeps ∧ other = result) ∧
    (∀ template ∈ program.templates, template.signature.isProducing = true ↔
      ∃ chain last, program.templates.IsCallChain (template :: chain) ∧
        (template :: chain).getLast? = some last ∧
        (Signature.ofText last.text).isProducing = true) ∧
    ∀ (otherSource : Text) (other : Program), ofText otherSource = .ok other →
      (program.templates.map fun template => (template.name, template.text)).Perm
          (other.templates.map fun template => (template.name, template.text)) →
      (program.templates.map fun template =>
          (template.name, template.text, template.signature)).Perm
        (other.templates.map fun template =>
          (template.name, template.text, template.signature)) := by
  refine ⟨?_, fun graph table => ?_, fun template member => ?_,
    fun otherSource other otherExtracted => perm_signatures_of_perm extracted otherExtracted⟩
  · obtain ⟨found, taken, equal⟩ := bind_eq_ok_iff.mp extracted
    obtain rfl := pure_eq_ok_iff.mp equal
    obtain ⟨sweeps, bound, result, settles⟩ :=
      Templates.exists_settles found.templates.keepFirst.callGraph found.templates.keepFirst
    obtain rfl := settles.eq_promote (Templates.nodup_map_name_keepFirst _)
    exact ⟨found, _, taken, rfl, fun template member => signature_of_takeDefinitions taken
        (Templates.mem_of_mem_keepFirst member),
      ⟨sweeps, bound, settles⟩, Templates.map_promote (fun _ _ => rfl) _⟩
  · obtain ⟨sweeps, bound, result, settles⟩ := Templates.exists_settles graph table
    exact ⟨sweeps, bound, result, settles, fun otherSweeps other others => settles.unique others⟩
  · rw [isProducing_iff_of_ofText extracted member,
      Templates.reachesPrint_iff_exists_isCallChain (nodup_map_name_of_ofText extracted) member]
    simp only [Signature.isProducing_ofText]

/-- Two templates that call each other, one of which calls itself and prints, and one that calls
itself and a name that is not defined. -/
theorem ofText_promotes_callers_cyclic :
    let statement (interior : String) : Text := (Statement.mk interior.toList).text
    let source : Text :=
      statement "define \"ping\"" ++ statement "execTemplate \"pong\"" ++ statement "end" ++
        statement "define \"lone\"" ++ statement "execTemplate \"lone\"" ++
        statement "execTemplate \"none\"" ++ statement "end" ++ statement "define \"pong\"" ++
        statement "execTemplate \"pong\" (execTemplate \"ping\")" ++ statement "print 1" ++
        statement "end"
    ∃ program, ofText source = .ok program ∧
      (∃ table, ∃ sweeps ≤ table.pure.length + 1,
        Templates.Settles table.callGraph sweeps table program.templates) ∧
      program.templates.map Template.name = ["ping".toList, "lone".toList, "pong".toList] ∧
      ∀ template ∈ program.templates, template.name ≠ "lone".toList ↔
        ∃ chain last, program.templates.IsCallChain (template :: chain) ∧
          (template :: chain).getLast? = some last ∧
          (Signature.ofText last.text).isProducing = true := by
  intro statement source
  have marks : (ofText source).map (fun program =>
      (program.templates.map Template.name, program.templates.all fun template =>
        template.signature.isProducing == (template.name != "lone".toList))) =
      .ok (["ping".toList, "lone".toList, "pong".toList], true) := by
    decide +kernel
  cases result : ofText source with
  | error =>
      rw [result] at marks
      cases marks
  | ok program =>
      rw [result] at marks
      obtain ⟨names, outputs⟩ := Prod.mk.inj (Except.ok.inj marks)
      obtain ⟨⟨_, table, _, _, _, ⟨sweeps, bound, settles⟩, _⟩, _, chains, _⟩ :=
        ofText_promotes_callers result
      refine ⟨program, rfl, ⟨table, sweeps, bound, settles⟩, names, fun template member => ?_⟩
      rw [← chains template member, beq_iff_eq.mp (List.all_eq_true.mp outputs template member),
        bne_iff_ne]

end Program
end OutputThreading
