import OutputThreading.Compile
import OutputThreading.Proofs.Block
import OutputThreading.Proofs.Line
import OutputThreading.Proofs.Output
import OutputThreading.Proofs.Relabeling.Threading

/-!
# Compiling relabeled texts

Lines, blocks, definitions and call graphs of a relabeled text are those of the text, with labels.  So
in the modes that keep comments a relabeled text is compiled to the relabeled output
(`compile_relabel`): no character of a comment mark has a meaning there.
-/

namespace OutputThreading

/-! ## Lines -/

section Lines

variable (relabeling : Relabeling)

theorem Text.lines_relabel (text : Text) :
    (text.relabel relabeling).lines = text.lines.map (relabel relabeling) := by
  have newline : relabeling '\n' = '\n' := relabeling.newline_eq_iff.mpr rfl
  have isReturn {c : Char} : relabeling c = '\r' ↔ c = '\r' :=
    relabeling.eq_iff (Character.isInert_eq_false_of_isCode rfl)
  -- a carriage return does not come in front of a line break by a label
  have stays {c : Char} {rest others : Text}
      (noReturn : ∀ others, c = '\r' → rest = '\n' :: others → False)
      (ends : relabeling c = '\r')
      (equal : rest.relabel relabeling = '\n' :: others) : False := by
    cases rest with
    | nil => cases equal
    | cons d rest =>
        have isBreak := relabeling.newline_eq_iff.mp (List.cons.inj equal).1
        exact noReturn rest (isReturn.mp ends) (by rw [isBreak])
  fun_induction lines text with
  | case1 => rfl
  | case2 rest inductionHypothesis =>
      rw [relabel_cons, newline, lines, inductionHypothesis]
      rfl
  | case3 rest inductionHypothesis =>
      rw [relabel_cons, relabel_cons, newline, isReturn.mpr rfl, lines, inductionHypothesis]
      rfl
  | case4 c rest noBreak noReturn empty inductionHypothesis =>
      rw [empty, List.map_nil] at inductionHypothesis
      rw [relabel_cons, lines, inductionHypothesis]
      · rfl
      · exact fun isBreak => noBreak (relabeling.newline_eq_iff.mp isBreak)
      · intro others ends equal
        exact stays noReturn ends equal
  | case5 c rest noBreak noReturn line others lines_eq inductionHypothesis =>
      rw [lines_eq, List.map_cons] at inductionHypothesis
      rw [relabel_cons, lines, inductionHypothesis]
      · rfl
      · exact fun isBreak => noBreak (relabeling.newline_eq_iff.mp isBreak)
      · intro others ends equal
        exact stays noReturn ends equal

theorem Text.wrapLine_relabel (line : Text) :
    (line.relabel relabeling).wrapLine = line.wrapLine.relabel relabeling := by
  have wrapped : (line.relabel relabeling).isWrapped = line.isWrapped := by
    rw [isWrapped, isWrapped, trim_relabel,
      startsWith_relabel relabeling Statement.opening (.of_isCode rfl),
      endsWith_relabel relabeling Statement.closing (.of_isCode rfl)]
  rw [wrapLine, wrapLine, isBlank_relabel, wrapped, leadingSpace_relabel, trim_relabel]
  split
  · rfl
  · rw [relabel_append, ← Statement.text_relabel]
    rfl

theorem Text.wrapLines_relabel (text : Text) :
    (text.relabel relabeling).wrapLines = text.wrapLines.relabel relabeling := by
  rw [wrapLines, wrapLines, lines_relabel, List.flatMap_map, relabel, List.map_flatMap]
  refine List.flatMap_congr fun line _ => ?_
  rw [wrapLine_relabel]
  exact (relabel_append_eq rfl (relabel_of_isCode relabeling _ rfl)).symm

end Lines

/-! ## Blocks and definitions -/

section Definitions

variable (relabeling : Relabeling)

/-- Two results with labels. -/
def Block.relabelParts (parts : List (Piece Marker) × List (Piece Marker)) :
    List (Piece Marker) × List (Piece Marker) :=
  (parts.1.map (Piece.relabel relabeling id), parts.2.map (Piece.relabel relabeling id))

theorem Block.lineAfter_relabel (line : Nat) (c : Char) :
    lineAfter line (relabeling c) = lineAfter line c := by
  simp only [lineAfter, relabeling.newline_eq_iff]

theorem Block.close_relabel
    (line : Nat)
    (innermost : OpenBlock)
    (outer : List OpenBlock)
    (pieces : List (Piece Marker)) :
    close line innermost outer (pieces.map (Piece.relabel relabeling id)) =
      (close line innermost outer pieces).map (relabelParts relabeling) := by
  fun_induction close line innermost outer pieces with
  | case1 => rfl
  | case2 line innermost outer c pieces inductionHypothesis =>
      rw [List.map_cons, Piece.relabel, close, lineAfter_relabel, inductionHypothesis]
      cases close (lineAfter line c) innermost outer pieces <;> rfl
  | case3 line innermost outer keyword pieces inductionHypothesis =>
      rw [List.map_cons, Piece.relabel, id, close, inductionHypothesis]
      cases close line ⟨keyword, line⟩ (innermost :: outer) pieces <;> rfl
  | case4 line innermost pieces => rfl
  | case5 line innermost pieces next outer inductionHypothesis =>
      rw [List.map_cons, Piece.relabel, id, close, inductionHypothesis]
      cases close line next outer pieces <;> rfl

theorem Program.headName?_relabel (text : Text) :
    headName? (text.relabel relabeling) = (headName? text).map (Text.relabel relabeling) := by
  rw [headName?, headName?, Text.trimStart_relabel,
    Text.after?_relabel relabeling ['"'] (.of_isCode rfl)]
  cases text.trimStart.after? ['"'] with
  | none => rfl
  | some behindQuote =>
      simp only [Option.map_some, Option.bind_eq_bind, Option.bind_some,
        Text.breakOn?_relabel relabeling ['"'] (.of_isCode rfl)]
      cases behindQuote.breakOn? ['"'] with
      | none => rfl
      | some parts =>
          simp only [Option.map_some, Option.bind_some, Text.relabelBoth, Text.trimStart_relabel,
            Text.after?_relabel relabeling Statement.closing (.of_isCode rfl)]
          cases parts.2.trimStart.after? Statement.closing with
          | none => rfl
          | some rest =>
              simp only [Option.map_some, Option.bind_some, Text.leadingSpace_relabel,
                Text.relabel_eq_nil_iff]
              split <;> rfl

theorem Program.definedName?_relabel (marker : Marker) (pieces : List (Piece Marker)) :
    definedName? marker (pieces.map (Piece.relabel relabeling id)) =
      (definedName? marker pieces).map (Text.relabel relabeling) := by
  unfold definedName?
  split
  · rw [(Marker.form_commutes relabeling).join_map_relabel, headName?_relabel]
  · rfl

/-- The program with labels in its templates and its main text. -/
def Program.relabel (program : Program) : Program :=
  ⟨program.templates.map (Template.relabel relabeling), program.main.relabel relabeling⟩

theorem Program.dropBreak_relabel (pieces : List (Piece Marker)) :
    dropBreak (pieces.map (Piece.relabel relabeling id)) =
        (dropBreak pieces).map (Piece.relabel relabeling id) ∧
      leadingBreaks (pieces.map (Piece.relabel relabeling id)) = leadingBreaks pieces := by
  rcases pieces with _ | ⟨c | marker, pieces⟩
  · exact ⟨rfl, rfl⟩
  · by_cases isBreak : c = '\n'
    · rw [isBreak, List.map_cons, Piece.relabel, relabeling.newline_eq_iff.mpr rfl]
      exact ⟨rfl, rfl⟩
    · have noBreak := relabeling.newline_eq_iff.not.mpr isBreak
      simp [Piece.relabel, dropBreak, leadingBreaks, isBreak, noBreak]
  · exact ⟨rfl, rfl⟩

theorem Program.definition_relabel (name text : Text) (line : Nat) :
    definition (name.relabel relabeling) (text.relabel relabeling) line =
      (definition name text line).relabel relabeling := by
  rw [definition, Signature.ofText_relabel]
  rfl

theorem Program.takeDefinitions_relabel (line : Nat) (pieces : List (Piece Marker)) :
    takeDefinitions line (pieces.map (Piece.relabel relabeling id)) =
      relabelResult relabeling (relabel relabeling) (takeDefinitions line pieces) := by
  have commutes := Marker.form_commutes relabeling
  have written (marker : Marker) : marker.text.relabel relabeling = marker.text :=
    Text.relabel_eq_self relabeling _ marker.text_isActive
  fun_induction takeDefinitions line pieces with
  | case1 line =>
      rw [List.map_nil, takeDefinitions]
      rfl
  | case2 line c pieces inductionHypothesis =>
      rw [List.map_cons, Piece.relabel, takeDefinitions, Block.lineAfter_relabel,
        inductionHypothesis]
      exact bind_relabelResult relabeling fun program => rfl
  | case3 line marker pieces unnamed inductionHypothesis =>
      have stillUnnamed := definedName?_relabel relabeling marker pieces
      rw [unnamed, Option.map_none] at stillUnnamed
      rw [List.map_cons, Piece.relabel, id, takeDefinitions, stillUnnamed, inductionHypothesis]
      refine bind_relabelResult relabeling fun program => congrArg Except.ok ?_
      exact congrArg (Program.mk _) (Text.relabel_append_eq (written marker) rfl).symm
  | case4 line marker pieces name named block unclosed =>
      have stillNamed := definedName?_relabel relabeling marker pieces
      have closes := Block.close_relabel relabeling line ⟨.define, line⟩ [] pieces
      rw [named, Option.map_some] at stillNamed
      rw [unclosed] at closes
      rw [List.map_cons, Piece.relabel, id, takeDefinitions_cons_of_error stillNamed closes]
      rfl
  | case5 line marker pieces name named inside behind closed body inductionHypothesis =>
      have stillNamed := definedName?_relabel relabeling marker pieces
      have closes := Block.close_relabel relabeling line ⟨.define, line⟩ [] pieces
      rw [named, Option.map_some] at stillNamed
      rw [closed] at closes
      obtain ⟨dropped, breaks⟩ := dropBreak_relabel relabeling behind
      rw [List.map_cons, Piece.relabel, id, takeDefinitions_cons_of_ok stillNamed closes,
        commutes.join_map_relabel, Text.breaks_relabel, breaks, dropped, inductionHypothesis]
      refine bind_relabelResult relabeling fun program => congrArg Except.ok ?_
      have whole : marker.text ++ body.relabel relabeling =
          Text.relabel relabeling (marker.text ++ body) :=
        (Text.relabel_append_eq (written marker) rfl).symm
      exact congrArg (prependTemplate · (program.relabel relabeling)) <|
        (congrArg (definition _ · line) whole).trans (definition_relabel relabeling name _ line)

end Definitions

/-! ## Templates -/

section Templates

variable (relabeling : Relabeling)

theorem Text.mem_map_relabel_iff {name : Text} {names : List Text} :
    name.relabel relabeling ∈ names.map (relabel relabeling) ↔ name ∈ names :=
  List.mem_map_of_injective (relabel_injective relabeling)

/-- The call graph with labels in the names. -/
def CallGraph.relabel (graph : CallGraph) : CallGraph :=
  graph.map (Prod.map (Text.relabel relabeling) (List.map (Text.relabel relabeling)))

theorem CallGraph.grow_relabel (graph : CallGraph) (marked : List Text) :
    (graph.relabel relabeling).grow (marked.map (Text.relabel relabeling)) =
      (graph.grow marked).map (Text.relabel relabeling) := by
  rw [grow, grow, relabel, List.filterMap_map, List.map_filterMap]
  refine List.filterMap_congr fun entry _ => ?_
  have called : (entry.2.map (Text.relabel relabeling)).any
      (· ∈ marked.map (Text.relabel relabeling)) = entry.2.any (· ∈ marked) := by
    simp only [List.any_map, Function.comp_def, Text.mem_map_relabel_iff]
  simp only [Function.comp_apply, Prod.map_fst, Prod.map_snd, called, Text.mem_map_relabel_iff]
  split <;> rfl

theorem CallGraph.reach_relabel (graph : CallGraph) (marked : List Text) :
    (graph.relabel relabeling).reach (marked.map (Text.relabel relabeling)) =
      (graph.reach marked).map (Text.relabel relabeling) := by
  fun_induction graph.reach marked with
  | case1 marked grows inductionHypothesis =>
      rw [reach, grow_relabel, List.length_map, List.length_map, if_pos grows,
        inductionHypothesis]
  | case2 marked stays =>
      rw [reach, grow_relabel, List.length_map, List.length_map, if_neg stays]

namespace Templates

variable (templates : Templates)

theorem filter_relabel (keeps : Signature → Bool) :
    (templates.map (Template.relabel relabeling)).filter (fun template => keeps template.signature) =
      (templates.filter fun template => keeps template.signature).map
        (Template.relabel relabeling) := by
  rw [List.filter_map]
  rfl

theorem signatures_relabel (name : Text) :
    signatures (templates.map (Template.relabel relabeling)) (name.relabel relabeling) =
      templates.signatures name := by
  have named : (fun template => decide (template.name = name.relabel relabeling)) ∘
      Template.relabel relabeling = fun template : Template => decide (template.name = name) :=
    funext fun template => decide_eq_decide.mpr (Text.relabel_inj relabeling)
  rw [signatures, signatures, find?, find?, List.find?_map, named, Option.map_map]
  rfl

theorem keepFirst_relabel :
    keepFirst (templates.map (Template.relabel relabeling)) =
      (keepFirst templates).map (Template.relabel relabeling) := by
  induction templates with
  | nil => rfl
  | cons template others inductionHypothesis =>
      have named : (fun other => decide (other.name ≠ (template.relabel relabeling).name)) ∘
          Template.relabel relabeling = fun other : Template => decide (other.name ≠ template.name) :=
        funext fun other => decide_eq_decide.mpr (Text.relabel_inj relabeling).not
      rw [List.map_cons, keepFirst, keepFirst, inductionHypothesis, List.filter_map, named]
      rfl

theorem callGraph_relabel :
    callGraph (templates.map (Template.relabel relabeling)) =
      templates.callGraph.relabel relabeling := by
  rw [callGraph, callGraph, CallGraph.relabel, List.map_map, List.map_map]
  refine List.map_congr_left fun template _ => ?_
  exact congrArg (Prod.mk _) (Text.callees_relabel relabeling template.text)

theorem promote_relabel :
    promote (templates.map (Template.relabel relabeling)) =
      (promote templates).map (Template.relabel relabeling) := by
  have marked : (producing (templates.map (Template.relabel relabeling))).map Template.name =
      (templates.producing.map Template.name).map (Text.relabel relabeling) := by
    rw [producing, filter_relabel relabeling templates Signature.isProducing, List.map_map,
      List.map_map]
    rfl
  have reached := CallGraph.reach_relabel relabeling templates.callGraph
    (templates.producing.map Template.name)
  rw [← callGraph_relabel, ← marked] at reached
  simp only [promote]
  rw [reached, List.map_map, List.map_map]
  refine List.map_congr_left fun template _ => ?_
  simp only [Function.comp_apply, Template.relabel, Text.mem_map_relabel_iff]
  split <;> rfl

end Templates

end Templates

/-! ## Programs -/

section Programs

variable (relabeling : Relabeling)

theorem Program.ofText_relabel (text : Text) :
    ofText (text.relabel relabeling) =
      relabelResult relabeling (relabel relabeling) (ofText text) := by
  rw [ofText, (Marker.form_commutes relabeling).split_relabel, takeDefinitions_relabel]
  refine bind_relabelResult relabeling fun program => congrArg Except.ok ?_
  simp only [relabel, Templates.keepFirst_relabel, Templates.promote_relabel]

/-- Generated names do not depend on labels. -/
theorem NameSupply.ofSource_relabel (naming : Naming) (text : Text) :
    ofSource naming (text.relabel relabeling) =
      relabelResult relabeling id (ofSource naming text) := by
  cases naming with
  | reserved =>
      rw [ofSource, ofSource, reservedVariable?, Variable.lined_relabel, ← reservedVariable?]
      cases found : reservedVariable? text with
      | none => rfl
      | some item =>
          have member : item.2 ∈ Variable.form.phrases text := by
            rw [← Form.map_snd_lined]
            exact List.mem_map_of_mem (List.mem_of_find?_eq_some found)
          have own := Variable.relabel_eq_self relabeling text item.2 member
          have written := (Variable.form_commutes relabeling).write_label item.2
          rw [own] at written
          exact congrArg (fun name => Except.error (CompileError.reservedVariable name item.1)) written
  | fresh =>
      rw [ofSource, ofSource, Text.variableNames_relabel]
      rfl

theorem Text.endLine_relabel (text : Text) :
    (text.relabel relabeling).endLine = text.endLine.relabel relabeling := by
  have ended : (text.relabel relabeling).getLast? = some '\n' ↔ text.getLast? = some '\n' := by
    rw [relabel, List.getLast?_map]
    simp [relabeling.newline_eq_iff]
  simp only [endLine, List.isEmpty_iff, relabel_eq_nil_iff, ended, Bool.or_eq_true,
    decide_eq_true_eq]
  split
  · rfl
  · exact (relabel_append_eq rfl (relabel_of_isCode relabeling ['\n'] rfl)).symm

theorem Text.threadMain_relabel
    {context : ThreadingContext}
    (isName : context.names.accumulator.IsName)
    (text : Text)
    (unknownCalls : UnknownCalls) :
    (text.relabel relabeling).threadMain (context.relabel relabeling) unknownCalls =
      relabelResult relabeling (relabel relabeling) (text.threadMain context unknownCalls) := by
  have collected := Text.collectPrints_relabel relabeling isName text
  have threads := ThreadingContext.threadCalls_relabel relabeling isName unknownCalls
    (text.collectPrints context.names.accumulator)
  rw [← collected] at threads
  unfold threadMain
  refine (congrArg (· >>= _) threads).trans
    (bind_relabelResult relabeling fun threaded => congrArg Except.ok ?_)
  have declared := Accumulator.declare_relabel relabeling isName
  have emitted := Accumulator.emit_relabel relabeling isName
  have lineBreak := relabel_of_isCode relabeling ['\n'] rfl
  rw [endLine_relabel]
  exact (relabel_append_eq (relabel_append_eq (relabel_append_eq
    (relabel_append_eq declared lineBreak) rfl) emitted) lineBreak).symm

theorem Program.thread_relabel
    {names : NameSupply}
    (isName : names.accumulator.IsName)
    (program : Program)
    (config : Config) :
    (program.relabel relabeling).thread names (config.relabel relabeling) =
      relabelResult relabeling (relabel relabeling) (program.thread names config) := by
  let context : ThreadingContext := ⟨names, program.templates.signatures⟩
  have context_eq : ThreadingContext.mk names (program.relabel relabeling).templates.signatures =
      context.relabel relabeling := by
    refine congrArg (ThreadingContext.mk names) (funext fun name => ?_)
    have known := Templates.signatures_relabel relabeling program.templates
      (name.relabel relabeling.symm)
    rwa [Text.relabel_relabel_symm] at known
  unfold thread
  rw [context_eq]
  refine (congrArg (· >>= _) (Templates.thread_relabel relabeling isName
    program.templates config)).trans (bind_relabelResult relabeling fun templates => ?_)
  refine (congrArg (· >>= _) (Text.threadMain_relabel relabeling isName
    program.main config.unknownCalls)).trans (bind_relabelResult relabeling fun main => rfl)

theorem Program.text_relabel (program : Program) :
    (program.relabel relabeling).text = program.text.relabel relabeling := by
  have producing := Templates.filter_relabel relabeling program.templates Signature.isProducing
  have pure := Templates.filter_relabel relabeling program.templates
    fun signature => !signature.isProducing
  have lineBreak := Text.relabel_of_isCode relabeling ['\n'] rfl
  rw [text, text, Text.relabel_append, Text.relabel, Text.relabel, List.map_flatMap]
  refine congrArg (· ++ _) ?_
  rw [relabel, Templates.producing, producing, Templates.pure, pure, ← List.map_append,
    List.flatMap_map]
  refine List.flatMap_congr fun template _ => ?_
  exact (Text.relabel_append_eq rfl lineBreak).symm

theorem Config.threadText_relabel (config : Config) (text : Text) :
    (config.relabel relabeling).threadText (text.relabel relabeling) =
      relabelResult relabeling (Text.relabel relabeling) (config.threadText text) := by
  unfold threadText
  have names := NameSupply.ofSource_relabel relabeling config.naming text
  cases made : NameSupply.ofSource config.naming text with
  | error error =>
      rw [made] at names
      exact congrArg (· >>= _) names
  | ok supply =>
      have generated : supply.IsGenerated := ⟨config.naming, text, made⟩
      rw [made] at names
      rw [show NameSupply.ofSource (config.relabel relabeling).naming (text.relabel relabeling) =
        .ok supply from names]
      change (Program.ofText (text.relabel relabeling) >>= fun program =>
          program.thread supply (config.relabel relabeling) >>= fun threaded =>
            pure threaded.text) =
        relabelResult relabeling (Text.relabel relabeling) (Program.ofText text >>= fun program =>
          program.thread supply config >>= fun threaded => pure threaded.text)
      rw [Program.ofText_relabel]
      refine bind_relabelResult relabeling fun program => ?_
      rw [Program.thread_relabel relabeling generated.accumulator_isName]
      exact bind_relabelResult relabeling fun threaded =>
        congrArg Except.ok (Program.text_relabel relabeling threaded)

theorem Mode.finish_relabel
    {mode : Mode}
    (keeps : mode.erasesComments = false)
    (text : Text) :
    mode.finish (text.relabel relabeling) = (mode.finish text).relabel relabeling := by
  have unwrapped : (text.relabel relabeling).unwrapPrints = text.unwrapPrints.relabel relabeling :=
    (Print.form_commutes relabeling).replace_relabel
      (fun print => Statement.text_relabel relabeling ⟨print.expression⟩) text
  cases mode with
  | syntaxOnly => cases keeps
  | runtime => exact unwrapped
  | conceptual => rfl
  | product => cases keeps

/-- Where comments are kept, the marks of a comment can be exchanged for other inert characters before
a compilation or after it. -/
theorem compile_relabel
    (config : Config)
    (keeps : config.mode.erasesComments = false)
    (text : Text) :
    compile (config.relabel relabeling) (text.relabel relabeling) =
      relabelResult relabeling (Text.relabel relabeling) (compile config text) := by
  have threads : config.mode.threadsOutput = true := by
    cases mode : config.mode with
    | syntaxOnly =>
        rw [mode] at keeps
        cases keeps
    | runtime | conceptual | product => rfl
  have normalized : config.mode.normalize (text.relabel relabeling) =
      (config.mode.normalize text).relabel relabeling := by
    simp only [Mode.normalize, keeps, Bool.false_eq_true, if_false, Text.wrapLines_relabel]
  have threaded := Config.threadText_relabel relabeling config (config.mode.normalize text)
  rw [← normalized] at threaded
  have threadsLabel : (config.relabel relabeling).mode.threadsOutput = true := threads
  rw [compile_eq_map_finish threads, compile_eq_map_finish threadsLabel]
  refine (congrArg (Except.map config.mode.finish) threaded).trans ?_
  cases config.threadText (config.mode.normalize text) with
  | error error => rfl
  | ok value => exact congrArg Except.ok (Mode.finish_relabel relabeling keeps value)

/-- The appends of a relabeled text. -/
theorem Text.appends_relabel {accumulator : Text} (isName : accumulator.IsName) (text : Text) :
    (text.relabel relabeling).appends accumulator =
      (text.appends accumulator).map (relabel relabeling) := by
  have head := Accumulator.appendHead_relabel relabeling isName
  rw [appends, appends, (Statement.form_commutes relabeling).phrases_relabel, List.filterMap_map,
    List.map_filterMap]
  refine List.filterMap_congr fun statement _ => ?_
  have appended := Text.after?_relabel_relabel relabeling statement.interior
    (Accumulator.appendHead accumulator)
  rwa [head] at appended

end Programs
end OutputThreading
