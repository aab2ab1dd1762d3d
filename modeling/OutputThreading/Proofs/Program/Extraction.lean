import OutputThreading.Program.Extraction
import OutputThreading.Proofs.Block

/-!
# Extracted templates

Extraction cuts every template out of the text as one block, so its text ends with an end statement;
and promotion only ever changes whether a template produces output, so what its signature says about
returns is what its text shows (`Program.isDefinition_of_mem_ofText`).
-/

namespace OutputThreading

/-- What extraction promises of a template. -/
structure Template.IsDefinition (template : Template) : Prop where
  /-- The text ends with an end statement. -/
  closer_suffix : Marker.closer <:+ template.text
  /-- The signature shows the returns of the text. -/
  returns_eq : template.signature.returns = (Signature.ofText template.text).returns

namespace Program

theorem isDefinition_definition
    {line opened : Nat}
    {keyword : Keyword}
    {pieces inside behind : List (Piece Marker)}
    (closed : Block.close line ⟨keyword, opened⟩ [] pieces = .ok (inside, behind))
    (name front : Text) :
    (definition name (front ++ Marker.form.join inside) line).IsDefinition := by
  refine ⟨?_, rfl⟩
  obtain ⟨before, rfl⟩ := Block.exists_inside_eq_of_close closed
  refine ⟨front ++ Marker.form.join before, ?_⟩
  have ends : Marker.form.join [.phrase .closes] = Marker.closer := by
    rw [Form.join_cons, Form.join_nil, List.append_nil]
    rfl
  change _ = front ++ Marker.form.join (before ++ [.phrase .closes])
  rw [Form.join_append, ends, List.append_assoc]

/-- Every template that is taken out of a text is a definition. -/
theorem isDefinition_of_mem_takeDefinitions
    {line : Nat}
    {pieces : List (Piece Marker)}
    {program : Program}
    (taken : takeDefinitions line pieces = .ok program) :
    ∀ template ∈ program.templates, template.IsDefinition := by
  fun_induction takeDefinitions line pieces generalizing program with
  | case1 line =>
      cases taken
      simp
  | case2 line c pieces inductionHypothesis =>
      obtain ⟨rest, found, equal⟩ := bind_eq_ok_iff.mp taken
      have others := inductionHypothesis found
      rw [← pure_eq_ok_iff.mp equal]
      exact others
  | case3 line marker pieces unnamed inductionHypothesis =>
      obtain ⟨rest, found, equal⟩ := bind_eq_ok_iff.mp taken
      have others := inductionHypothesis found
      rw [← pure_eq_ok_iff.mp equal]
      exact others
  | case4 line marker pieces name named block unclosed => cases taken
  | case5 line marker pieces name named inside behind closed body =>
      rename_i inductionHypothesis
      obtain ⟨rest, found, equal⟩ := bind_eq_ok_iff.mp taken
      have others := inductionHypothesis found
      rw [← pure_eq_ok_iff.mp equal]
      intro template member
      rcases List.mem_cons.mp member with rfl | member
      · exact isDefinition_definition closed name marker.text
      · exact others template member

end Program

namespace Templates

theorem mem_of_mem_keepFirst
    {templates : Templates}
    {template : Template}
    (member : template ∈ templates.keepFirst) :
    template ∈ templates := by
  induction templates with
  | nil => cases member
  | cons first others inductionHypothesis =>
      rcases List.mem_cons.mp member with rfl | member
      · exact List.mem_cons_self
      · exact List.mem_cons_of_mem first (inductionHypothesis (List.mem_filter.mp member).1)

/-- Promotion keeps the texts and what is said about returns. -/
theorem isDefinition_of_mem_promote
    {templates : Templates}
    (definitions : ∀ template ∈ templates, template.IsDefinition) :
    ∀ template ∈ templates.promote, template.IsDefinition := by
  intro template member
  obtain ⟨source, isSource, rfl⟩ := List.mem_map.mp member
  have definition := definitions source isSource
  split
  · exact ⟨definition.closer_suffix, definition.returns_eq⟩
  · exact definition

end Templates

namespace Program

/-- Every template of an extracted program is a definition. -/
theorem isDefinition_of_mem_ofText
    {text : Text}
    {program : Program}
    (extracted : ofText text = .ok program) :
    ∀ template ∈ program.templates, template.IsDefinition := by
  obtain ⟨taken, found, equal⟩ := bind_eq_ok_iff.mp extracted
  rw [← pure_eq_ok_iff.mp equal]
  apply Templates.isDefinition_of_mem_promote
  intro template member
  exact isDefinition_of_mem_takeDefinitions found template (Templates.mem_of_mem_keepFirst member)

end Program
end OutputThreading
