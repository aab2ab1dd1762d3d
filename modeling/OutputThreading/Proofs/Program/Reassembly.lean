import OutputThreading.Proofs.Offset.Extraction

/-!
# Extraction undoes reassembly

The text of a program lists its definitions, each on lines of its own, and the main text behind
them.  A definition ends where its block does, whatever follows, so it is taken out together with
the line break behind it (`Program.takeDefinitions_append`), and the main text is left if no
definition stands in it (`Program.takeDefinitions_eq_of_free`).  So extracting the text of a program
gives its main text and its templates back (`Program.ofText_undoes_text`).
-/

namespace OutputThreading

/-! ## Texts without definitions -/

/-- A definition stands in a text exactly if a head is read at one of its ends. -/
theorem Text.holdsDefinition_iff (text : Text) :
    text.HoldsDefinition ↔ ∃ behind ∈ text.tails, (Offset.headName? behind).isSome = true := by
  simp only [List.mem_tails, Option.isSome_iff_exists, Offset.headName?_eq_some_iff]
  constructor
  · rintro ⟨before, behind, name, rfl, starts⟩
    exact ⟨behind, List.suffix_append before behind, name, starts⟩
  · rintro ⟨behind, ⟨before, rfl⟩, name, starts⟩
    exact ⟨before, behind, name, rfl, starts⟩

instance (text : Text) : Decidable text.HoldsDefinition :=
  decidable_of_iff _ text.holdsDefinition_iff.symm

theorem Text.HoldsDefinition.append_left
    {text : Text}
    (holds : text.HoldsDefinition)
    (front : Text) :
    (front ++ text).HoldsDefinition := by
  obtain ⟨before, behind, name, rfl, starts⟩ := holds
  exact ⟨front ++ before, behind, name, by rw [List.append_assoc], starts⟩

namespace Program

/-- A text in which no definition stands is main text. -/
theorem takeDefinitions_eq_of_free
    {line : Nat}
    {pieces : List (Piece Marker)}
    (free : ¬(Marker.form.join pieces).HoldsDefinition) :
    takeDefinitions line pieces = .ok ⟨[], Marker.form.join pieces⟩ := by
  fun_induction takeDefinitions line pieces with
  | case1 => rfl
  | case2 line c pieces inductionHypothesis =>
      rw [inductionHypothesis fun holds => free (holds.append_left [c])]
      rfl
  | case3 line marker pieces unnamed inductionHypothesis =>
      rw [inductionHypothesis fun holds => free (holds.append_left marker.text)]
      rfl
  | case4 line marker pieces name named block unclosed =>
      exact absurd ⟨[], _, name, rfl, (definedName?_eq_some_iff.mp named).2⟩ free
  | case5 line marker pieces name named inside behind closed =>
      exact absurd ⟨[], _, name, rfl, (definedName?_eq_some_iff.mp named).2⟩ free

end Program

/-! ## Definitions in front of a text -/

/-- A block that starts with the head of a definition opens with its marker. -/
theorem Block.exists_split_eq_of_startsDefinition
    {block name : Text}
    (whole : block.IsBlock)
    (starts : block.StartsDefinition name) :
    ∃ pieces, Marker.form.split block = .phrase (.opens .define) :: pieces ∧
      ∀ line opened, close line opened [] pieces = .ok (pieces, []) := by
  obtain ⟨keyword, pieces, split_eq, closes, ends⟩ := block.isBlock_iff.mp whole
  obtain ⟨behind, read⟩ := starts.exists_read?_eq
  have markerRead := Marker.form.read?_eq_some_of_split_eq_cons split_eq
  obtain ⟨same, _⟩ := Prod.mk.inj (Option.some.inj (read.symm.trans markerRead))
  obtain rfl := Marker.opens.inj same
  exact ⟨pieces, split_eq, fun line opened =>
    (close_eq_ok_self_iff line opened [] pieces).mpr ⟨closes, ends⟩⟩

namespace Program

/-- A definition in front of a text is taken out with the line break behind it. -/
theorem takeDefinitions_append
    {block name : Text}
    (whole : block.IsBlock)
    (starts : block.StartsDefinition name)
    (line : Nat)
    (rest : Text) :
    takeDefinitions line (Marker.form.split (block ++ '\n' :: rest)) = do
      let program ← takeDefinitions (line + block.breaks + 1) (Marker.form.split rest)
      return program.prependTemplate (definition name block line) := by
  obtain ⟨pieces, split_eq, closes⟩ := Block.exists_split_eq_of_startsDefinition whole starts
  have lineBreak : Marker.form.split ('\n' :: rest) = .char '\n' :: Marker.form.split rest :=
    Marker.form.split_cons_of_read?_eq_none
      (Marker.form_isBraced.read?_cons_eq_none fun brace => absurd brace (by decide))
  have parts : Marker.form.split (block ++ '\n' :: rest) =
      .phrase (.opens .define) :: (pieces ++ .char '\n' :: Marker.form.split rest) := by
    rw [whole.split_append, split_eq, lineBreak, List.cons_append]
  have named : definedName? (.opens .define) (pieces ++ .char '\n' :: Marker.form.split rest) =
      some name := by
    rw [definedName?_eq_some_iff, ← parts, Form.join_split]
    exact ⟨rfl, starts.append _⟩
  have closed := Block.close_append (closes line ⟨.define, line⟩)
    (.char '\n' :: Marker.form.split rest)
  have block_eq : Marker.text (.opens .define) ++ Marker.form.join pieces = block := by
    rw [← Marker.form.join_split block, split_eq]
    rfl
  have breaks_eq : (Marker.form.join pieces).breaks = block.breaks := by
    rw [← block_eq, Text.breaks_append, Marker.breaks_text, Nat.zero_add]
  rw [parts, takeDefinitions_cons_of_ok named closed, block_eq, breaks_eq]
  rfl

/-- Definitions that stand in front of a main text one after the other are taken out of it. -/
theorem exists_takeDefinitions_flatMap
    {templates : Templates}
    (blocks : ∀ template ∈ templates, template.text.IsBlock)
    (heads : ∀ template ∈ templates, template.text.StartsDefinition template.name)
    {main : Text}
    (free : ¬main.HoldsDefinition)
    (line : Nat) :
    ∃ found : Templates,
      takeDefinitions line (Marker.form.split
        (templates.flatMap (fun template => template.text ++ ['\n']) ++ main)) =
          .ok ⟨found, main⟩ ∧
      found.map (fun template => (template.name, template.text)) =
        templates.map fun template => (template.name, template.text) := by
  induction templates generalizing line with
  | nil =>
      rw [← Marker.form.join_split main] at free
      refine ⟨[], ?_, rfl⟩
      rw [List.flatMap_nil, List.nil_append, takeDefinitions_eq_of_free free, Form.join_split]
  | cons template templates inductionHypothesis =>
      rw [List.forall_mem_cons] at blocks heads
      obtain ⟨found, taken, same⟩ :=
        inductionHypothesis blocks.2 heads.2 (line + template.text.breaks + 1)
      have glued :
          (template :: templates).flatMap (fun template => template.text ++ ['\n']) ++ main =
            template.text ++ '\n' ::
              (templates.flatMap (fun template => template.text ++ ['\n']) ++ main) := by
        simp
      refine ⟨definition template.name template.text line :: found, ?_, ?_⟩
      · rw [glued, takeDefinitions_append blocks.1 heads.1, taken]
        rfl
      · rw [List.map_cons, same, List.map_cons]
        rfl

end Program

/-- Templates with different names are all kept. -/
theorem Templates.keepFirst_eq_self
    {templates : Templates}
    (distinct : (templates.map Template.name).Nodup) :
    templates.keepFirst = templates := by
  induction templates with
  | nil => rfl
  | cons template others inductionHypothesis =>
      obtain ⟨absent, distinctOthers⟩ := List.nodup_cons.mp distinct
      rw [keepFirst, inductionHypothesis distinctOthers, List.filter_eq_self.mpr]
      intro other member
      refine decide_eq_true fun same => absent ?_
      rw [← same]
      exact List.mem_map_of_mem member

namespace Program

/-- Extracting the text of a program gives its main text and its templates back, the producing ones
first and the pure ones behind them, each in their order. -/
theorem ofText_undoes_text
    {templates : Templates}
    {main : Text}
    (distinct : (templates.map Template.name).Nodup)
    (blocks : ∀ template ∈ templates, template.text.IsBlock)
    (heads : ∀ template ∈ templates, template.text.StartsDefinition template.name)
    (free : ¬main.HoldsDefinition) :
    ∃ program, ofText (text ⟨templates, main⟩) = .ok program ∧
      Offset.program (text ⟨templates, main⟩) = pure program ∧
      program.main = main ∧
      program.templates.map (fun template => (template.name, template.text)) =
        (templates.producing ++ templates.pure).map fun template =>
          (template.name, template.text) := by
  have grouped : (templates.producing ++ templates.pure).Perm templates :=
    List.filter_append_perm _ templates
  obtain ⟨found, taken, same⟩ := exists_takeDefinitions_flatMap
    (fun template member => blocks template (grouped.mem_iff.mp member))
    (fun template member => heads template (grouped.mem_iff.mp member)) free 1
  have names :
      found.map Template.name = (templates.producing ++ templates.pure).map Template.name := by
    have firsts := congrArg (List.map Prod.fst) same
    rwa [List.map_map, List.map_map] at firsts
  have distinctFound : (found.map Template.name).Nodup := by
    rw [names]
    exact (grouped.map Template.name).nodup_iff.mpr distinct
  have extracted : ofText (text ⟨templates, main⟩) = .ok ⟨found.promote, main⟩ := by
    rw [ofText, text, taken]
    exact congrArg (fun kept => Except.ok (⟨Templates.promote kept, main⟩ : Program))
      (Templates.keepFirst_eq_self distinctFound)
  refine ⟨_, extracted, ?_, rfl, ?_⟩
  · rw [Offset.program_eq, extracted]
    rfl
  · rw [Templates.map_promote fun _ _ => rfl, same]

/-- A pure template in front of a producing one with blocks in its definition, and a main text in
which a definition is opened without a name. -/
theorem ofText_undoes_text_nested :
    let statement (interior : String) : Text := (Statement.mk interior.toList).text
    let inner : Template := {
      name := "inner".toList
      text := statement "define \"inner\"" ++ "\n1\n".toList ++ statement "end"
      line := 7
      signature := ⟨.pure, .bare⟩ }
    let outer : Template := {
      name := "outer".toList
      text := statement "define \"outer\"" ++ statement "if .x" ++
        statement "define \"deep\"" ++ statement "end" ++ statement "end" ++ statement "end"
      line := 1
      signature := ⟨.producing, .bare⟩ }
    let main : Text := statement "define" ++ "\n".toList ++ statement "end"
    ∃ program, Offset.program (text ⟨[inner, outer], main⟩) = pure program ∧
      program.main = main ∧
      program.templates.map Template.name = ["outer".toList, "inner".toList] := by
  intro statement inner outer main
  have heads : ∀ template ∈ [inner, outer],
      Offset.headName? template.text = some template.name := by
    decide +kernel
  have free : ¬main.HoldsDefinition := by
    decide +kernel
  obtain ⟨program, -, extracted, main_eq, same⟩ := ofText_undoes_text
    (by decide +kernel) (by decide +kernel)
    (fun template member => Offset.headName?_eq_some_iff.mp (heads template member)) free
  refine ⟨program, extracted, main_eq, ?_⟩
  have names := congrArg (List.map Prod.fst) same
  rw [List.map_map] at names
  exact names

end Program
end OutputThreading
