import OutputThreading.Proofs.Offset.Block
import OutputThreading.Proofs.Offset.Call

/-!
# Extraction at byte offsets

Definitions are found by searching for one head after the other, each time from the offset where the
last definition ends.  Their ranges are then taken out of the text from the last to the first, so
that every range is still that of its definition when its turn comes (`Offset.program_eq`).
-/

namespace OutputThreading
namespace Offset

/-! ## The first head of a definition -/

/-- The name in the head of a definition at the start of a text. -/
def headName? (text : Text) : Option Text := do
  let behind ← text.after? Keyword.define.opener
  Program.headName? behind

/-- The first head of a definition in a text: its offset and its name. -/
def firstHead? (text : Text) : Option (Nat × Text) :=
  match headName? text with
  | some name => some (0, name)
  | none =>
      match text with
      | [] => none
      | c :: rest => (firstHead? rest).map fun (offset, name) => (c.utf8Size + offset, name)

theorem headName?_eq_some_iff {text name : Text} :
    headName? text = some name ↔ text.StartsDefinition name := by
  rw [headName?, Option.bind_eq_bind, Option.bind_eq_some_iff]
  constructor
  · rintro ⟨behind, opened, named⟩
    rw [Text.eq_append_of_after? opened]
    exact Program.headName?_eq_some_iff.mp named
  · intro starts
    obtain ⟨spacing, padding, rest, rfl, conditions⟩ := starts
    refine ⟨_, Text.after?_append _ _, Program.headName?_eq_some_iff.mpr ?_⟩
    exact ⟨spacing, padding, rest, rfl, conditions⟩

theorem firstHead?_of_headName? {text name : Text} (found : headName? text = some name) :
    firstHead? text = some (0, name) := by
  rw [firstHead?.eq_def, found]

/-- A part in which no definition starts is passed over. -/
theorem firstHead?_append
    {front rest : Text}
    (free : ∀ part name, part <:+ front → part ≠ [] → ¬Text.StartsDefinition (part ++ rest) name) :
    firstHead? (front ++ rest) =
      (firstHead? rest).map fun (offset, name) => (front.byteSize + offset, name) := by
  induction front with
  | nil => simp
  | cons c front inductionHypothesis =>
      have noHead : headName? (c :: front ++ rest) = none := by
        rw [Option.eq_none_iff_forall_ne_some]
        intro name found
        exact free (c :: front) name List.suffix_rfl (List.cons_ne_nil c front)
          (headName?_eq_some_iff.mp found)
      have others := inductionHypothesis fun part name suffix =>
        free part name (suffix.trans (List.suffix_cons c front))
      rw [firstHead?.eq_def, noHead]
      simp only [List.cons_append, others, Option.map_map, Function.comp_def, Text.byteSize_cons,
        Nat.add_assoc]

/-! ## The search for definitions -/

/-- The definitions of a text from an offset on, each with the range that is taken out for it. -/
def definitions (text : Text) (position : Nat) : Checked (List (Span × Template)) := do
  let behind ← (text.sliceFrom? position : Option _)
  match firstHead? behind with
  | none => return []
  | some (offset, name) =>
      let start := position + offset
      let stop ← blockEnd text [⟨.define, start⟩] (start + Keyword.define.opener.byteSize)
      let body ← (text.slice? ⟨start, stop⟩ : Option _)
      let rest ← (text.sliceFrom? stop : Option _)
      let removedStop := if rest.startsWith ['\n'] then stop + 1 else stop
      if IsAhead text start stop then
        let others ← definitions text stop
        return (⟨start, removedStop⟩, Program.definition name body (text.lineAt start)) :: others
      else liftM (none : Option _)
termination_by text.byteSize - position
decreasing_by omega

/-- Take ranges out of a text, from the last to the first. -/
def removeAll (text : Text) (spans : List Span) : Option Text :=
  spans.foldrM (fun span rest => rest.replaceRange? span []) text

/-- Mark every template that can reach a producing one as producing. -/
def promote (templates : Templates) : Option Templates := do
  let graph : CallGraph ← templates.mapM fun template => do
    return (template.name, (← calls template.text).map LocatedCall.callee)
  let reached := graph.reach (templates.producing.map Template.name)
  return templates.map fun template =>
    if reached.contains template.name then
      { template with signature := { template.signature with output := .producing } }
    else template

/-- Split a source text into a program. -/
def program (text : Text) : Checked Program := do
  let found ← definitions text 0
  let templates ← (promote (Templates.keepFirst (found.map Prod.snd)) : Option _)
  let main ← (removeAll text (found.map Prod.fst) : Option _)
  return ⟨templates, main⟩

/-- The search passes over a part in which no definition starts. -/
theorem definitions_append
    {text before rest : Text}
    (front : Text)
    (text_eq : text = before ++ (front ++ rest))
    (free : ∀ part name, part <:+ front → part ≠ [] → ¬Text.StartsDefinition (part ++ rest) name) :
    definitions text before.byteSize = definitions text (before ++ front).byteSize := by
  have position (offset : Nat) :
      (before ++ front).byteSize + offset = before.byteSize + (front.byteSize + offset) := by
    rw [Text.byteSize_append, Nat.add_assoc]
  rw [definitions, definitions, text_eq, Text.sliceFrom?_append, ← List.append_assoc before,
    Text.sliceFrom?_append, Checked.liftM_some, Checked.liftM_some, pure_bind, pure_bind,
    firstHead?_append free]
  cases firstHead? rest with
  | none => rfl
  | some head => simp only [Option.map_some, position]

theorem promote_eq (templates : Templates) : promote templates = some templates.promote := by
  have graph : (templates.mapM fun template => do
      return (template.name, (← calls template.text).map LocatedCall.callee)) =
      some templates.callGraph := by
    have callees (template : Template) :
        (do return (template.name, (← calls template.text).map LocatedCall.callee)) =
          (pure (template.name, template.text.callees) : Option _) := by
      rw [calls_eq, ← Text.map_callee_callSites]
      simp [LocatedCall.ofSite, LocatedCall.ofOccurrence, Function.comp_def]
    simp only [callees]
    exact List.mapM_pure
  rw [promote, graph]
  simp only [Option.bind_eq_bind, Option.bind_some, List.contains_eq_mem, decide_eq_true_eq]
  rfl

/-- A search for definitions behind `before` finds those that are taken out of the text there, and
taking their ranges out of the text leaves the main text; or both end with the same error. -/
def Finds (text before : Text) :
    Except CompileError Program → Checked (List (Span × Template)) → Prop
  | .error error, search => search = throw error
  | .ok program, search =>
      ∃ found, search = pure found ∧ found.map Prod.snd = program.templates ∧
        removeAll text (found.map Prod.fst) = some (before ++ program.main)

/-- Text that is passed over belongs to the main text. -/
theorem Finds.prependMain
    {text before front : Text}
    {taken : Except CompileError Program}
    {search : Checked (List (Span × Template))}
    (finds : Finds text (before ++ front) taken search) :
    Finds text before (taken >>= fun program => return program.prependMain front) search := by
  cases taken with
  | error error => exact finds
  | ok program =>
      obtain ⟨found, search_eq, templates_eq, main_eq⟩ := finds
      refine ⟨found, search_eq, templates_eq, ?_⟩
      rw [main_eq, List.append_assoc]
      rfl

/-- A definition is taken out when everything behind it is, and its range is still the same. -/
theorem Finds.prependTemplate
    {text before removed : Text}
    {taken : Except CompileError Program}
    {search : Checked (List (Span × Template))}
    (finds : Finds text (before ++ removed) taken search)
    (template : Template) :
    Finds text before (taken >>= fun program => return program.prependTemplate template)
      (search >>= fun others => return (Span.behind before removed, template) :: others) := by
  cases taken with
  | error error =>
      obtain rfl := finds
      rfl
  | ok program =>
      obtain ⟨found, rfl, templates_eq, main_eq⟩ := finds
      refine ⟨_, rfl, ?_, ?_⟩
      · rw [List.map_cons, templates_eq]
        rfl
      · rw [List.map_cons, removeAll, List.foldrM_cons, ← removeAll, main_eq, List.append_assoc]
        exact Text.replaceRange?_append before removed program.main []

/-- No definition starts at a line break. -/
theorem not_startsDefinition_of_gap
    {gap rest : Text}
    (isGap : gap = ['\n'] ∨ gap = [])
    (part name : Text)
    (suffix : part <:+ gap)
    (nonempty : part ≠ []) :
    ¬Text.StartsDefinition (part ++ rest) name := by
  rintro ⟨spacing, padding, behind, equal, _⟩
  have member : part.head? = some '{' := by
    obtain ⟨c, tail, rfl⟩ := List.exists_cons_of_ne_nil nonempty
    exact congrArg List.head? equal
  have inGap : '{' ∈ gap := suffix.subset (List.mem_of_mem_head? member)
  rcases isGap with rfl | rfl <;> simp at inGap

/-- Where a head starts, the end of its block is searched behind the opener. -/
theorem definitions_of_headName?
    {text before behind name : Text}
    (text_eq : text = before ++ behind)
    (found : headName? behind = some name) :
    definitions text before.byteSize = (do
      let stop ← blockEnd text [⟨.define, before.byteSize⟩]
        (before ++ Keyword.define.opener).byteSize
      let body ← (text.slice? ⟨before.byteSize, stop⟩ : Option _)
      let rest ← (text.sliceFrom? stop : Option _)
      let removedStop := if rest.startsWith ['\n'] then stop + 1 else stop
      if IsAhead text before.byteSize stop then
        let others ← definitions text stop
        return (⟨before.byteSize, removedStop⟩,
          Program.definition name body (text.lineAt before.byteSize)) :: others
      else liftM (none : Option _)) := by
  have sliceFrom : text.sliceFrom? before.byteSize = some behind := by
    rw [text_eq, Text.sliceFrom?_append]
  rw [definitions, sliceFrom, Checked.liftM_some, pure_bind, firstHead?_of_headName? found,
    Text.byteSize_append]
  rfl

/-- A definition whose end is known is cut out, and the search goes on behind its line break. -/
theorem definitions_of_blockEnd
    {text before body gap rest name : Text}
    (text_eq : text = before ++ (body ++ (gap ++ rest)))
    (isGap : gap = ['\n'] ∨ gap = [] ∧ rest.head? ≠ some '\n')
    (nonempty : body ≠ [])
    (found : headName? (body ++ (gap ++ rest)) = some name)
    (ends : blockEnd text [⟨.define, before.byteSize⟩]
      (before ++ Keyword.define.opener).byteSize = pure (before ++ body).byteSize) :
    definitions text before.byteSize = do
      let others ← definitions text (before ++ (body ++ gap)).byteSize
      return (Span.behind before (body ++ gap),
        Program.definition name body (1 + before.breaks)) :: others := by
  have slice : text.slice? ⟨before.byteSize, (before ++ body).byteSize⟩ = some body := by
    rw [text_eq, Text.byteSize_append]
    exact Text.slice?_append before body (gap ++ rest)
  have sliceFrom : text.sliceFrom? (before ++ body).byteSize = some (gap ++ rest) := by
    rw [text_eq, ← List.append_assoc, Text.sliceFrom?_append]
  have line : text.lineAt before.byteSize = 1 + before.breaks := by
    rw [text_eq, Text.lineAt_byteSize_append]
  have removed : (if (gap ++ rest).startsWith ['\n'] then (before ++ body).byteSize + 1
      else (before ++ body).byteSize) = before.byteSize + Text.byteSize (body ++ gap) := by
    have single : '\n'.utf8Size = 1 := by decide
    rcases isGap with rfl | ⟨rfl, noBreak⟩
    · simp [Text.startsWith, single, Nat.add_assoc]
    · have notStarts : rest.startsWith ['\n'] = false := by
        cases rest with
        | nil => rfl
        | cons c rest => simpa [Text.startsWith, Text.after?] using noBreak
      simp [notStarts]
  have passed : definitions text (before ++ body).byteSize =
      definitions text (before ++ (body ++ gap)).byteSize := by
    have text_eq_gap : text = (before ++ body) ++ (gap ++ rest) := by
      rw [text_eq]
      simp
    rw [← List.append_assoc]
    exact definitions_append gap text_eq_gap
      (not_startsDefinition_of_gap (isGap.imp_right And.left))
  have ahead : IsAhead text before.byteSize (before ++ body).byteSize := by
    rw [text_eq]
    exact isAhead_append nonempty before (gap ++ rest)
  rw [definitions_of_headName? text_eq found, ends, pure_bind, slice, Checked.liftM_some, pure_bind,
    sliceFrom, Checked.liftM_some, pure_bind, removed, line, if_pos ahead, passed]
  rfl

/-- The block of a definition ends where its pieces do. -/
theorem blockEnd_of_define
    {text before : Text}
    {pieces : List (Piece Marker)}
    (text_eq : text = before ++ Marker.form.join (.phrase (.opens .define) :: pieces))
    (whole : Marker.form.split (Marker.form.join (.phrase (.opens .define) :: pieces)) =
      .phrase (.opens .define) :: pieces) :
    blockEnd text [⟨.define, before.byteSize⟩] (before ++ Keyword.define.opener).byteSize =
      closedAt (before ++ Keyword.define.opener)
        (Block.close (1 + before.breaks) ⟨.define, 1 + before.breaks⟩ [] pieces) := by
  have parts : Marker.form.split (Marker.form.join (.phrase (.opens .define) :: pieces)) =
      [.phrase (.opens .define)] ++ pieces := whole
  have text_eq_behind : text = (before ++ Keyword.define.opener) ++ Marker.form.join pieces := by
    rw [text_eq, List.append_assoc]
    rfl
  have opened : Frame.opened text ⟨.define, before.byteSize⟩ = ⟨.define, 1 + before.breaks⟩ := by
    rw [text_eq, Frame.opened_append]
  have line : (before ++ Keyword.define.opener).breaks = before.breaks := by
    rw [Text.breaks_append]
    exact congrArg (before.breaks + ·) (Marker.breaks_text (.opens .define))
  rw [blockEnd_eq _ text_eq_behind (Marker.form.split_join_of_split_eq_append parts), opened, line]
  rfl

/-- The search for definitions finds those that are taken out of the text. -/
theorem definitions_finds
    {text before : Text}
    {line : Nat}
    {pieces : List (Piece Marker)}
    (text_eq : text = before ++ Marker.form.join pieces)
    (whole : Marker.form.split (Marker.form.join pieces) = pieces)
    (line_eq : line = 1 + before.breaks) :
    Finds text before (Program.takeDefinitions line pieces) (definitions text before.byteSize) := by
  fun_induction Program.takeDefinitions line pieces generalizing before with
  | case1 line =>
      refine ⟨[], ?_, rfl, ?_⟩
      · rw [definitions, text_eq, Text.sliceFrom?_append]
        rfl
      · rw [text_eq]
        rfl
  | case2 line c pieces inductionHypothesis =>
      have parts : Marker.form.split (Marker.form.join (.char c :: pieces)) = [.char c] ++ pieces :=
        whole
      have text_eq_behind : text = (before ++ [c]) ++ Marker.form.join pieces := by
        rw [text_eq, List.append_assoc]
        rfl
      rw [definitions_append [c] text_eq fun part =>
        Program.not_startsDefinition_of_char whole]
      refine Finds.prependMain (inductionHypothesis text_eq_behind
        (Marker.form.split_join_of_split_eq_append parts) ?_)
      rw [Block.lineAfter_eq, line_eq, Text.breaks_append, Nat.add_assoc]
  | case3 line marker pieces unnamed inductionHypothesis =>
      have parts : Marker.form.split (Marker.form.join (.phrase marker :: pieces)) =
          [.phrase marker] ++ pieces := whole
      have text_eq_behind : text = (before ++ marker.text) ++ Marker.form.join pieces := by
        rw [text_eq, List.append_assoc]
        rfl
      rw [definitions_append marker.text text_eq fun part =>
        Program.not_startsDefinition_of_marker whole unnamed]
      refine Finds.prependMain (inductionHypothesis text_eq_behind
        (Marker.form.split_join_of_split_eq_append parts) ?_)
      rw [Text.breaks_append, marker.breaks_text, Nat.add_zero, line_eq]
  | case4 line marker pieces name named block unclosed =>
      obtain ⟨rfl, starts⟩ := Program.definedName?_eq_some_iff.mp named
      rw [definitions_of_headName? text_eq (headName?_eq_some_iff.mpr starts),
        blockEnd_of_define text_eq whole, ← line_eq, unclosed]
      rfl
  | case5 line marker pieces name named inside behind closed body =>
      rename_i inductionHypothesis
      obtain ⟨rfl, starts⟩ := Program.definedName?_eq_some_iff.mp named
      have ends := blockEnd_of_define text_eq whole
      rw [← line_eq, closed] at ends
      obtain rfl := Block.append_eq_of_close closed
      have parts : Marker.form.split
          (Marker.form.join (.phrase (.opens .define) :: (inside ++ behind))) =
          (.phrase (.opens .define) :: inside) ++ behind := whole
      obtain ⟨gap, behind_eq, isGap, breaks_eq, wholeBehind⟩ :=
        Program.exists_gap_of_split_join (Marker.form.split_join_of_split_eq_append parts)
      have join_eq : Marker.form.join (.phrase (.opens .define) :: (inside ++ behind)) =
          (Marker.text (.opens .define) ++ body) ++
            (gap ++ Marker.form.join (Program.dropBreak behind)) := by
        rw [Form.join_cons, Form.join_append, ← List.append_assoc, behind_eq]
        rfl
      rw [join_eq] at text_eq starts
      rw [definitions_of_blockEnd text_eq isGap (by simp [Marker.text_ne_nil])
        (headName?_eq_some_iff.mpr starts), ← line_eq]
      · refine Finds.prependTemplate (inductionHypothesis ?_ wholeBehind ?_) _
        · rw [text_eq]
          simp only [List.append_assoc]
        · simp only [Text.breaks_append, Marker.breaks_text, line_eq, breaks_eq, Nat.zero_add,
            Nat.add_assoc]
      · rw [ends]
        simp only [closedAt, List.append_assoc]
        rfl

/-- Extraction at offsets gives the program of the text or the error that the text has. -/
theorem program_eq (text : Text) : program text = .ofExcept (Program.ofText text) := by
  have whole : Marker.form.split (Marker.form.join (Marker.form.split text)) =
      Marker.form.split text := by rw [Form.join_split]
  have text_eq : text = [] ++ Marker.form.join (Marker.form.split text) :=
    (Marker.form.join_split text).symm
  have finds := definitions_finds text_eq whole rfl
  rw [program, Program.ofText]
  change Finds text [] _ (definitions text 0) at finds
  rw [Text.breaks_nil, Nat.add_zero] at finds
  cases taken : Program.takeDefinitions 1 (Marker.form.split text) with
  | error error =>
      rw [taken] at finds
      rw [show definitions text 0 = throw error from finds]
      rfl
  | ok taken =>
      rw [taken] at finds
      obtain ⟨found, search_eq, templates_eq, main_eq⟩ := finds
      rw [search_eq, pure_bind, templates_eq, promote_eq, Checked.liftM_some, pure_bind, main_eq]
      rfl

end Offset
end OutputThreading
