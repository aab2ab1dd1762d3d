import Mathlib.Data.List.Count
import OutputThreading.Proofs.Relabeling.Forms
import OutputThreading.Template.Threading

/-!
# Threading relabeled texts

Generated names hold no inert characters, and two names of templates are the same exactly if their
labels are.  So threading a relabeled text, with the names of the templates relabeled as well, gives
the relabeled result (`Template.thread_relabel`).
-/

namespace OutputThreading

/-! ## Results -/

section Results

variable (relabeling : Relabeling)

/-- The error for the relabeled text. -/
def CompileError.relabel : CompileError → CompileError
  | unclosedBlock block => unclosedBlock block
  | reservedVariable name line => reservedVariable (name.relabel relabeling) line
  | undefinedTemplate name line => undefinedTemplate (name.relabel relabeling) line

/-- The result for the relabeled text: the label of the value, or the error with labels. -/
def relabelResult {α : Type} (label : α → α) (result : Except CompileError α) :
    Except CompileError α :=
  (result.map label).mapError (CompileError.relabel relabeling)

/-- Steps that commute with relabeling one by one commute with it one after the other. -/
theorem bind_relabelResult
    {α β : Type}
    {label : α → α}
    {labelAfter : β → β}
    {result : Except CompileError α}
    {next nextLabel : α → Except CompileError β}
    (commutes : ∀ value, nextLabel (label value) = relabelResult relabeling labelAfter (next value)) :
    relabelResult relabeling label result >>= nextLabel =
      relabelResult relabeling labelAfter (result >>= next) := by
  cases result with
  | error error => rfl
  | ok value => exact commutes value

end Results

/-! ## Generated code -/

section Code

variable (relabeling : Relabeling) {accumulator : Text}

theorem Accumulator.appendHead_relabel (isName : accumulator.IsName) :
    (appendHead accumulator).relabel relabeling = appendHead accumulator := by
  have word := Text.relabel_of_isCode relabeling " = joinStr \"\\n\" ".toList rfl
  have blank := Text.relabel_of_isCode relabeling [' '] rfl
  rw [appendHead, Text.relabel_append, Text.relabel_append, Text.relabel_append, word, blank,
    isName.relabel_eq]

theorem Accumulator.append_relabel (isName : accumulator.IsName) (expression : Text) :
    append accumulator (expression.relabel relabeling) =
      (append accumulator expression).relabel relabeling := by
  rw [append, append, ← Statement.text_relabel, Statement.relabel, Text.relabel_append,
    appendHead_relabel relabeling isName]

theorem Accumulator.declare_relabel (isName : accumulator.IsName) :
    (declare accumulator).relabel relabeling = declare accumulator := by
  rw [declare, ← Statement.text_relabel, Statement.relabel, Text.relabel_append, isName.relabel_eq,
    Text.relabel_of_isCode relabeling " := \"\"".toList rfl]

theorem Accumulator.emit_relabel (isName : accumulator.IsName) :
    (emit accumulator).relabel relabeling = emit accumulator := by
  rw [emit, ← Statement.text_relabel, Statement.relabel, isName.relabel_eq]

theorem Accumulator.pair_relabel (isName : accumulator.IsName) (expression : Text) :
    pair accumulator (expression.relabel relabeling) =
      (pair accumulator expression).relabel relabeling := by
  have word := Text.relabel_of_isCode relabeling "(cslice ".toList rfl
  have opens := Text.relabel_of_isCode relabeling " (".toList rfl
  have closes := Text.relabel_of_isCode relabeling "))".toList rfl
  exact (Text.relabel_append_eq (Text.relabel_append_eq (Text.relabel_append_eq
    (Text.relabel_append_eq word (isName.relabel_eq relabeling)) opens) rfl) closes).symm

theorem Accumulator.project_relabel {pair : Text} (isName : pair.IsName) (index : Nat) :
    (project pair index).relabel relabeling = project pair index := by
  have number : Text.IsName (Text.ofNat index) :=
    Text.isName_of_digits fun c => Text.isDigit_of_mem_ofNat
  have word := Text.relabel_of_isCode relabeling "(index ".toList rfl
  have blank := Text.relabel_of_isCode relabeling [' '] rfl
  have closes := Text.relabel_of_isCode relabeling [')'] rfl
  exact Text.relabel_append_eq (Text.relabel_append_eq (Text.relabel_append_eq
    (Text.relabel_append_eq word (isName.relabel_eq relabeling)) blank)
    (number.relabel_eq relabeling)) closes

theorem NameSupply.stem_relabel (callee : Text) : stem (callee.relabel relabeling) = stem callee := by
  rw [stem, stem, Text.relabel, List.map_map]
  refine List.map_congr_left fun c _ => ?_
  refine relabeling.apply_eq '_' (f := fun c =>
    if Character.isAlphanumeric c || c = '_' then c else '_') (fun c inert => ?_) c
  have notAlphanumeric := (Character.isInert_iff.mp inert).2.2.1
  simp [notAlphanumeric]

/-- Temporaries do not tell a template from its label. -/
theorem NameSupply.temporary_relabel (names : NameSupply) (callee : Text) (earlier : Nat) :
    names.temporary (callee.relabel relabeling) earlier = names.temporary callee earlier := by
  simp only [temporary, temporaryBase, stem_relabel]

theorem Text.collectPrints_relabel (isName : accumulator.IsName) (text : Text) :
    (text.relabel relabeling).collectPrints accumulator =
      (text.collectPrints accumulator).relabel relabeling :=
  (Print.form_commutes relabeling).replace_relabel
    (fun print => Accumulator.append_relabel relabeling isName print.expression) text

theorem Return.withOutput_relabel (isName : accumulator.IsName) (statement : Return) :
    (statement.relabel relabeling).withOutput accumulator =
      (statement.withOutput accumulator).relabel relabeling := by
  have valued : (statement.relabel relabeling).isValued = statement.isValued := by
    simp [isValued, relabel, Text.relabel]
  rw [withOutput, withOutput, valued, ← Statement.text_relabel, Statement.relabel,
    Text.relabel_append,
    Text.relabel_of_isCode relabeling "return ".toList rfl]
  split
  · rw [← Accumulator.pair_relabel relabeling isName]
    rfl
  · rw [isName.relabel_eq]

theorem Text.returnOutput_relabel (isName : accumulator.IsName) (text : Text) :
    (text.relabel relabeling).returnOutput accumulator =
      (text.returnOutput accumulator).relabel relabeling :=
  (Return.form_commutes relabeling).replace_relabel
    (Return.withOutput_relabel relabeling isName) text

theorem Text.declareAccumulator_relabel (isName : accumulator.IsName) (text indent : Text) :
    (text.relabel relabeling).declareAccumulator accumulator (indent.relabel relabeling) =
      (text.declareAccumulator accumulator indent).relabel relabeling := by
  rw [declareAccumulator, declareAccumulator,
    breakOn?_relabel relabeling Statement.closing (.of_isCode rfl)]
  cases text.breakOn? Statement.closing with
  | none => rfl
  | some parts =>
      simp only [Option.map_some, relabelBoth, relabel_append,
        relabel_of_isCode relabeling Statement.closing rfl,
        relabel_of_isCode relabeling ['\n'] rfl,
        Accumulator.declare_relabel relabeling isName]

theorem Text.ensureReturn_relabel (text indent : Text) :
    (text.relabel relabeling).ensureReturn (indent.relabel relabeling) =
      (text.ensureReturn indent).relabel relabeling := by
  rw [ensureReturn, ensureReturn, (Return.form_commutes relabeling).occursIn_relabel,
    breakOnLast?_relabel relabeling Marker.closer (.of_isCode rfl)]
  split
  · rfl
  · cases text.breakOnLast? Marker.closer with
    | none => rfl
    | some parts =>
        have bare : Return.bare.text.relabel relabeling = Return.bare.text :=
          relabel_of_isCode relabeling _ rfl
        have closer : Marker.closer.relabel relabeling = Marker.closer :=
          relabel_of_isCode relabeling _ rfl
        simp only [Option.map_some, relabelBoth, isBlank_relabel, lastLine_relabel,
          beforeLastLine_relabel]
        split <;>
          simp only [relabel_append, bare, closer,
            relabel_of_isCode relabeling ['\n'] rfl]

end Code

theorem Text.relabel_intercalate (relabeling : Relabeling) (separator : Text) (texts : List Text) :
    relabel relabeling (List.intercalate separator texts) =
      List.intercalate (separator.relabel relabeling) (texts.map (relabel relabeling)) := by
  induction texts with
  | nil => rfl
  | cons text texts inductionHypothesis =>
      cases texts with
      | nil => simp
      | cons next texts =>
          rw [List.intercalate_cons_of_ne_nil (List.cons_ne_nil next texts), relabel_append,
            relabel_append, inductionHypothesis, List.map_cons, List.map_cons, List.map_cons,
            List.intercalate_cons_of_ne_nil (List.cons_ne_nil _ _)]

/-! ## Calls -/

section Calls

variable (relabeling : Relabeling)

theorem Call.normalized_relabel (call : Call) :
    (call.relabel relabeling).normalized = call.normalized.relabel relabeling := by
  rw [normalized, normalized, relabel, relabel,
    Text.relabel_of_isCode relabeling [' '] rfl]

theorem Text.count_relabel (names : List Text) (name : Text) :
    (names.map (relabel relabeling)).count (name.relabel relabeling) = names.count name :=
  List.count_map_of_injective names _ (relabel_injective relabeling) name

/-- Calls of a statement keep their numbers. -/
theorem Call.number_relabel (earlier : List Text) (pieces : List (Piece Call)) :
    number (earlier.map (Text.relabel relabeling))
        (pieces.map (Piece.relabel relabeling (relabel relabeling))) =
      (number earlier pieces).map
        (Piece.relabel relabeling (Prod.map (relabel relabeling) id)) := by
  induction pieces generalizing earlier with
  | nil => rfl
  | cons piece pieces inductionHypothesis =>
      cases piece with
      | char c =>
          rw [number, List.map_cons, List.map_cons, ← inductionHypothesis]
          rfl
      | phrase call =>
          have numbered : (earlier.map (Text.relabel relabeling)).count
              (call.relabel relabeling).callee = earlier.count call.callee :=
            Text.count_relabel relabeling earlier call.callee
          rw [number, List.map_cons, List.map_cons, ← inductionHypothesis, ← numbered]
          rfl

/-- What threading the call leads to, with labels. -/
def ThreadedCall.relabel (threaded : ThreadedCall) : ThreadedCall :=
  ⟨threaded.setup.map (Text.relabel relabeling), threaded.value.relabel relabeling⟩

namespace ThreadingContext

/-- The context of the relabeled text: the templates go by the labels of their names. -/
def relabel (context : ThreadingContext) : ThreadingContext :=
  ⟨context.names, fun name => context.signatures (name.relabel relabeling.symm)⟩

@[simp] theorem signatures_relabel (context : ThreadingContext) (name : Text) :
    (context.relabel relabeling).signatures (name.relabel relabeling) =
      context.signatures name := by
  exact congrArg context.signatures (Text.relabel_symm_relabel relabeling name)

variable {context : ThreadingContext} (isName : context.names.accumulator.IsName)

include isName

theorem threadCall?_relabel (call : Call) (earlier : Nat) :
    (context.relabel relabeling).threadCall? (call.relabel relabeling) earlier =
      (context.threadCall? call earlier).map (ThreadedCall.relabel relabeling) := by
  have temporaryName := context.names.temporary_isName call.callee earlier
  have temporary : (context.relabel relabeling).names.temporary (call.relabel relabeling).callee
      earlier = context.names.temporary call.callee earlier :=
    context.names.temporary_relabel relabeling call.callee earlier
  have written : (call.relabel relabeling).normalized.text =
      call.normalized.text.relabel relabeling := by
    rw [Call.normalized_relabel, Call.text_relabel]
  have known : (context.relabel relabeling).signatures (call.relabel relabeling).callee =
      context.signatures call.callee :=
    context.signatures_relabel relabeling call.callee
  unfold threadCall?
  rw [known]
  rcases context.signatures call.callee with _ | ⟨_ | _, _ | _⟩
  · rfl
  · -- the call is bound, its output appended, its value projected
    have bound : (Statement.mk (context.names.temporary call.callee earlier ++ " := ".toList ++
          call.normalized.text.relabel relabeling)).text =
        (Statement.mk (context.names.temporary call.callee earlier ++ " := ".toList ++
          call.normalized.text)).text.relabel relabeling := by
      have becomes := Text.relabel_of_isCode relabeling " := ".toList rfl
      rw [← Statement.text_relabel, Statement.relabel, Text.relabel_append, Text.relabel_append,
        temporaryName.relabel_eq, becomes]
    have appended := Accumulator.append_relabel relabeling isName
      (Accumulator.project (context.names.temporary call.callee earlier) 0)
    have value := Accumulator.project_relabel relabeling temporaryName 1
    rw [Accumulator.project_relabel relabeling temporaryName] at appended
    simp only [Option.map_some, ThreadedCall.relabel, List.map_cons, List.map_nil, temporary,
      written, value, ← bound, ← appended]
    rfl
  · -- the call itself is appended
    have appended := Accumulator.append_relabel relabeling isName
      (['('] ++ call.normalized.text ++ [')'])
    have empty := Text.relabel_of_isCode relabeling emptyValue rfl
    have opens := Text.relabel_of_isCode relabeling ['('] rfl
    have closes := Text.relabel_of_isCode relabeling [')'] rfl
    rw [Text.relabel_append, Text.relabel_append, opens, closes] at appended
    simp only [Option.map_some, ThreadedCall.relabel, List.map_cons, List.map_nil, written,
      empty, ← appended]
    rfl
  · rfl
  · rfl

/-- The pieces of a relabeled statement. -/
theorem threadedPieces_relabel (statement : Statement) :
    (context.relabel relabeling).threadedPieces (statement.relabel relabeling) =
      (context.threadedPieces statement).map
        (Piece.relabel relabeling
          (Prod.map (Call.relabel relabeling) (Option.map (ThreadedCall.relabel relabeling)))) := by
  have numbered := Call.number_relabel relabeling [] (Call.form.split statement.interior)
  rw [List.map_nil] at numbered
  rw [threadedPieces, threadedPieces, Statement.relabel,
    (Call.form_commutes relabeling).split_relabel, numbered, List.map_map, List.map_map]
  refine List.map_congr_left fun piece _ => ?_
  cases piece with
  | char c => rfl
  | phrase item =>
      exact congrArg (fun threaded => Piece.phrase (item.1.relabel relabeling, threaded))
        (threadCall?_relabel relabeling isName item.1 item.2)

theorem setup_relabel (statement : Statement) :
    (context.relabel relabeling).setup (statement.relabel relabeling) =
      (context.setup statement).map (Text.relabel relabeling) := by
  rw [setup, setup, threadedPieces_relabel relabeling isName, List.filterMap_map,
    List.map_flatMap]
  generalize context.threadedPieces statement = pieces
  induction pieces with
  | nil => rfl
  | cons piece pieces inductionHypothesis =>
      cases piece with
      | char c => exact inductionHypothesis
      | phrase item =>
          obtain ⟨call, threaded⟩ := item
          simp only [List.filterMap_cons, Function.comp_apply, Piece.relabel, Prod.map_apply,
            Piece.phrase?_phrase, List.flatMap_cons]
          rw [← inductionHypothesis]
          cases threaded <;> rfl

theorem withValues_relabel (statement : Statement) :
    (context.relabel relabeling).withValues (statement.relabel relabeling) =
      (context.withValues statement).relabel relabeling := by
  refine congrArg Statement.mk ?_
  rw [threadedPieces_relabel relabeling isName, List.flatMap_map, withValues, Text.relabel,
    List.map_flatMap]
  refine List.flatMap_congr fun piece _ => ?_
  cases piece with
  | char c => rfl
  | phrase item =>
      obtain ⟨call, threaded⟩ := item
      cases threaded with
      | none => exact call.text_relabel relabeling
      | some threaded => rfl

theorem isSpent_relabel (statement : Statement) :
    (context.relabel relabeling).isSpent (statement.relabel relabeling) =
      context.isSpent statement := by
  have alone (occurrence : Form.Occurrence Call) :
      standsAlone (occurrence.relabel relabeling (Call.relabel relabeling)) =
        standsAlone occurrence := by
    simp only [standsAlone, Form.Occurrence.relabel, Text.isBlank_relabel]
  have appended (occurrence : Form.Occurrence Call) :
      (context.relabel relabeling).isAppended
          (occurrence.relabel relabeling (Call.relabel relabeling)) =
        context.isAppended occurrence := by
    have head := Text.relabel_append_eq (Accumulator.appendHead_relabel relabeling isName)
      (Text.relabel_of_isCode relabeling ['('] rfl)
    have closes := Text.relabel_of_isCode relabeling [')'] rfl
    exact congrArg₂ (· && ·) (decide_eq_decide.mpr (Text.relabel_eq_iff head))
      (decide_eq_decide.mpr (Text.relabel_eq_iff closes))
  rw [isSpent, isSpent, Statement.relabel, (Call.form_commutes relabeling).occurrences_relabel]
  rcases Call.form.occurrences statement.interior with _ | ⟨occurrence, _ | _⟩
  · rfl
  · have known := context.signatures_relabel relabeling occurrence.phrase.callee
    simp only [List.map_cons, List.map_nil, alone, appended]
    rw [← known]
    rfl
  · rfl

theorem threadStatement_relabel (indentation : Text) (statement : Statement) :
    (context.relabel relabeling).threadStatement (indentation.relabel relabeling)
        (statement.relabel relabeling) =
      (context.threadStatement indentation statement).relabel relabeling := by
  unfold threadStatement
  rw [setup_relabel relabeling isName, isSpent_relabel relabeling isName,
    withValues_relabel relabeling isName, Statement.text_relabel, Statement.text_relabel]
  cases context.setup statement with
  | nil => rfl
  | cons first setup =>
      have separator : '\n' :: indentation.relabel relabeling =
          Text.relabel relabeling ('\n' :: indentation) := by
        rw [Text.relabel_cons, relabeling.newline_eq_iff.mpr rfl]
      simp only [List.map_cons]
      rw [separator, Text.relabel_intercalate, List.map_append, List.map_cons]
      split <;> rfl

theorem threadKnownCalls_relabel (text : Text) :
    (context.relabel relabeling).threadKnownCalls (text.relabel relabeling) =
      (context.threadKnownCalls text).relabel relabeling := by
  refine (Statement.form_commutes relabeling).replaceInLine_relabel (fun line statement => ?_) text
  rw [Text.indentation_relabel]
  exact threadStatement_relabel relabeling isName line.indentation statement

omit isName in
theorem undefinedCallee?_relabel (statement : Statement) :
    (context.relabel relabeling).undefinedCallee? (statement.relabel relabeling) =
      (context.undefinedCallee? statement).map (Text.relabel relabeling) := by
  rw [undefinedCallee?, undefinedCallee?, Statement.callees_relabel, List.find?_map]
  simp only [Function.comp_def, signatures_relabel]

omit isName in
theorem undefinedCall?_relabel (text : Text) :
    (context.relabel relabeling).undefinedCall? (text.relabel relabeling) =
      (context.undefinedCall? text).map (CompileError.relabel relabeling) := by
  rw [undefinedCall?, undefinedCall?, (Statement.form_commutes relabeling).lined_relabel,
    List.findSome?_map, List.map_findSome?]
  congr 1
  funext ⟨line, statement⟩
  simp only [Function.comp_apply, Prod.map_apply, undefinedCallee?_relabel, Option.map_map]
  rfl

theorem threadCalls_relabel (unknownCalls : UnknownCalls) (text : Text) :
    (context.relabel relabeling).threadCalls unknownCalls (text.relabel relabeling) =
      relabelResult relabeling (Text.relabel relabeling)
        (context.threadCalls unknownCalls text) := by
  unfold threadCalls
  rw [undefinedCall?_relabel, threadKnownCalls_relabel relabeling isName]
  cases unknownCalls with
  | passthrough => rfl
  | error => cases context.undefinedCall? text <;> rfl

end ThreadingContext

end Calls

/-! ## Templates -/

section Templates

variable (relabeling : Relabeling)

/-- The configuration with labels in its indentation. -/
def Config.relabel (config : Config) : Config :=
  { config with indent := config.indent.relabel relabeling }

/-- The template with labels in its name and its text. -/
def Template.relabel (template : Template) : Template :=
  { template with
    name := template.name.relabel relabeling
    text := template.text.relabel relabeling }

variable {context : ThreadingContext} (isName : context.names.accumulator.IsName)

include isName

theorem Template.thread_relabel (template : Template) (config : Config) :
    (template.relabel relabeling).thread (context.relabel relabeling) (config.relabel relabeling) =
      relabelResult relabeling (relabel relabeling) (template.thread context config) := by
  have prepared : (template.relabel relabeling).prepared context.names.accumulator
      (config.indent.relabel relabeling) =
        (template.prepared context.names.accumulator config.indent).relabel relabeling := by
    rw [Template.prepared, Template.prepared, ← Text.ensureReturn_relabel,
      ← Text.collectPrints_relabel relabeling isName,
      ← Text.declareAccumulator_relabel relabeling isName]
    rfl
  have threadedProducing := ThreadingContext.threadCalls_relabel relabeling isName
    config.unknownCalls (template.prepared context.names.accumulator config.indent)
  rw [← prepared] at threadedProducing
  have threadedPure := ThreadingContext.threadCalls_relabel relabeling isName
    config.unknownCalls template.text
  by_cases producing : template.signature.isProducing = true
  · have producingLabel : (template.relabel relabeling).signature.isProducing = true := producing
    unfold Template.thread
    rw [if_pos producing, if_pos producingLabel]
    refine (congrArg (· >>= _) threadedProducing).trans
      (bind_relabelResult relabeling fun threaded => congrArg Except.ok ?_)
    exact congrArg (fun text => { template.relabel relabeling with text })
      (Text.returnOutput_relabel relabeling isName threaded)
  · have pureLabel : ¬(template.relabel relabeling).signature.isProducing = true := producing
    unfold Template.thread
    rw [if_neg producing, if_neg pureLabel]
    exact (congrArg (· >>= _) threadedPure).trans
      (bind_relabelResult relabeling fun threaded => rfl)

theorem Templates.thread_relabel (templates : Templates) (config : Config) :
    Templates.thread (templates.map (Template.relabel relabeling)) (context.relabel relabeling)
        (config.relabel relabeling) =
      relabelResult relabeling (List.map (Template.relabel relabeling))
        (templates.thread context config) := by
  induction templates with
  | nil => rfl
  | cons template templates inductionHypothesis =>
      rw [thread] at inductionHypothesis
      rw [thread, thread, List.map_cons, List.mapM_cons, List.mapM_cons,
        Template.thread_relabel relabeling isName]
      refine bind_relabelResult relabeling fun threaded => ?_
      rw [inductionHypothesis]
      exact bind_relabelResult relabeling fun others => rfl

end Templates
end OutputThreading
