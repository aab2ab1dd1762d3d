import OutputThreading.Compile
import OutputThreading.Proofs.Template.Calls

/-!
# Calls of undefined templates

Calls are checked in the prepared templates and then in the main text.  Preparing neither adds nor
drops a call nor changes their order, so the check sees the calls of the program one after the other
(`Program.reportedCallees`).  A compilation that refuses undefined templates fails at the first call
of one, and otherwise does what it does without the check (`compile_refuses_undefined_calls`).
-/

namespace OutputThreading

/-! ## The check of one text -/

namespace ThreadingContext

variable (context : ThreadingContext)

/-- The error for the first of the called templates that is not defined. -/
def undefined? (callees : List (Nat × Text)) : Option CompileError :=
  (callees.find? fun (_, callee) => (context.signatures callee).isNone).map fun (line, callee) =>
    .undefinedTemplate callee line

theorem undefined?_append (front rest : List (Nat × Text)) :
    context.undefined? (front ++ rest) = (context.undefined? front).or (context.undefined? rest) := by
  rw [undefined?, List.find?_append, Option.map_or]
  rfl

theorem undefined?_flatMap {α : Type} (f : α → List (Nat × Text)) (items : List α) :
    context.undefined? (items.flatMap f) = items.findSome? fun item => context.undefined? (f item) := by
  rw [undefined?, List.find?_flatMap, List.map_findSome?]
  rfl

variable {context} in
/-- The error names one of the called templates, which is not defined. -/
theorem exists_of_undefined?_eq_some
    {callees : List (Nat × Text)}
    {error : CompileError}
    (found : context.undefined? callees = some error) :
    ∃ name line, error = .undefinedTemplate name line ∧ (line, name) ∈ callees ∧
      (context.signatures name).isNone = true := by
  obtain ⟨⟨line, name⟩, first, equal⟩ := Option.map_eq_some_iff.mp found
  have undefined := List.find?_some first
  exact ⟨name, line, equal.symm, List.mem_of_find?_eq_some first, undefined⟩

theorem undefinedCall?_eq (text : Text) :
    context.undefinedCall? text = context.undefined? text.linedCallees := by
  rw [Text.linedCallees, Text.linedCalleesFrom, undefined?_flatMap, undefinedCall?, Form.lined]
  congr 1
  funext lined
  rw [undefined?, List.find?_map, Option.map_map]
  rfl

/-- Refusing undefined templates only adds the check, whatever is done next. -/
theorem bind_threadCalls_error
    {α : Type}
    (text : Text)
    (next : Text → Except CompileError α) :
    (context.threadCalls .error text >>= next) =
      (context.undefined? text.linedCallees).elim
        (context.threadCalls .passthrough text >>= next) .error := by
  rw [← undefinedCall?_eq]
  unfold threadCalls
  cases context.undefinedCall? text <;> rfl

end ThreadingContext

/-! ## The check of a program -/

/-- How many lines preparing a template puts in front of its calls. -/
def Template.addedLines (template : Template) (indent : Text) : Nat :=
  if template.signature.isProducing then 1 + indent.breaks else 0

/-- The templates that a template calls, with the lines on which its calls are checked. -/
def Template.reportedCallees (template : Template) (indent : Text) : List (Nat × Text) :=
  template.text.linedCallees.map fun (line, callee) => (line + template.addedLines indent, callee)

/-- The templates that a program calls, with the lines on which its calls are checked: those of the
templates in their order, then those of the main text. -/
def Program.reportedCallees (program : Program) (indent : Text) : List (Nat × Text) :=
  program.templates.flatMap (·.reportedCallees indent) ++ program.main.linedCallees

/-- The templates that a program calls: those called by its templates in their order, then those
called by the main text. -/
def Program.callees (program : Program) : List Text :=
  program.templates.flatMap (·.text.callees) ++ program.main.callees

theorem Program.map_snd_reportedCallees (program : Program) (indent : Text) :
    (program.reportedCallees indent).map Prod.snd = program.callees := by
  have ofTemplate (template : Template) :
      (template.reportedCallees indent).map Prod.snd = template.text.callees := by
    rw [Template.reportedCallees, List.map_map, ← Text.map_snd_linedCalleesFrom 1]
    rfl
  rw [reportedCallees, List.map_append, List.map_flatMap, Text.linedCallees,
    Text.map_snd_linedCalleesFrom, callees]
  simp only [ofTemplate]

namespace Template

variable {context : ThreadingContext} {config : Config} {template : Template}

theorem exists_thread_passthrough :
    ∃ result, template.thread context { config with unknownCalls := .passthrough } = .ok result := by
  unfold thread
  split
  · exact ⟨_, rfl⟩
  · exact ⟨_, rfl⟩

/-- Threading a template with undefined templates refused. -/
theorem IsCut.thread_error
    {head : Statement}
    {body : Text}
    (cut : template.IsCut head body)
    (generated : context.names.IsGenerated)
    (noOpening : '{' ∉ config.indent)
    (noClosing : '}' ∉ config.indent) :
    template.thread context { config with unknownCalls := .error } =
      (context.undefined? (template.reportedCallees config.indent)).elim
        (template.thread context { config with unknownCalls := .passthrough }) .error := by
  unfold thread reportedCallees addedLines
  by_cases producing : template.signature.isProducing = true
  · simp only [if_pos producing]
    rw [← cut.linedCallees_prepared generated noOpening noClosing]
    exact context.bind_threadCalls_error _ _
  · simp only [if_neg producing, Nat.add_zero, List.map_id_fun', id_eq]
    exact context.bind_threadCalls_error _ _

end Template

/-- Threading a main text with undefined templates refused. -/
theorem Text.WellDelimited.threadMain_error
    {context : ThreadingContext}
    (generated : context.names.IsGenerated)
    {text : Text}
    (delimited : text.WellDelimited) :
    text.threadMain context .error =
      (context.undefined? text.linedCallees).elim (text.threadMain context .passthrough) .error := by
  rw [← (delimited.collectPrints generated).2]
  exact context.bind_threadCalls_error _ _

/-- Going through items with a check that each of them may fail. -/
theorem mapM_eq_elim
    {ε α β : Type}
    {strict lenient : α → Except ε β}
    {check : α → Option ε}
    {items : List α}
    (checked : ∀ item ∈ items, strict item = (check item).elim (lenient item) .error)
    (total : ∀ item ∈ items, ∃ result, lenient item = .ok result) :
    items.mapM strict = (items.findSome? check).elim (items.mapM lenient) .error := by
  induction items with
  | nil => rfl
  | cons item items inductionHypothesis =>
      rw [List.forall_mem_cons] at checked total
      obtain ⟨result, succeeds⟩ := total.1
      rw [List.mapM_cons, List.mapM_cons, checked.1, inductionHypothesis checked.2 total.2,
        List.findSome?_cons, succeeds]
      cases check item with
      | some error => rfl
      | none => cases items.findSome? check <;> rfl

theorem exists_mapM_eq_ok
    {ε α β : Type}
    {f : α → Except ε β}
    {items : List α}
    (total : ∀ item ∈ items, ∃ result, f item = .ok result) :
    ∃ results, items.mapM f = .ok results := by
  induction items with
  | nil => exact ⟨[], rfl⟩
  | cons item items inductionHypothesis =>
      rw [List.forall_mem_cons] at total
      obtain ⟨result, succeeds⟩ := total.1
      obtain ⟨results, others⟩ := inductionHypothesis total.2
      refine ⟨result :: results, ?_⟩
      rw [List.mapM_cons, succeeds, others]
      rfl

namespace Program

variable {program : Program} {names : NameSupply} {config : Config}

theorem exists_thread_passthrough (program : Program) (names : NameSupply) (config : Config) :
    ∃ threaded, program.thread names { config with unknownCalls := .passthrough } = .ok threaded := by
  let context : ThreadingContext := ⟨names, program.templates.signatures⟩
  obtain ⟨templates, succeeds⟩ : ∃ templates,
      program.templates.thread context { config with unknownCalls := .passthrough } =
        .ok templates :=
    exists_mapM_eq_ok fun template _ => Template.exists_thread_passthrough
  obtain ⟨main, mainSucceeds⟩ : ∃ main, program.main.threadMain context .passthrough = .ok main :=
    ⟨_, rfl⟩
  exact ⟨⟨templates, main⟩,
    bind_eq_ok_iff.mpr ⟨templates, succeeds, bind_eq_ok_iff.mpr ⟨main, mainSucceeds, rfl⟩⟩⟩

/-- Threading a program with undefined templates refused. -/
theorem thread_error
    (generated : names.IsGenerated)
    (noOpening : '{' ∉ config.indent)
    (noClosing : '}' ∉ config.indent)
    (cut : ∀ template ∈ program.templates, ∃ head body, template.IsCut head body)
    (main : program.main.WellDelimited) :
    program.thread names { config with unknownCalls := .error } =
      (ThreadingContext.undefined? ⟨names, program.templates.signatures⟩
        (program.reportedCallees config.indent)).elim
        (program.thread names { config with unknownCalls := .passthrough }) .error := by
  let context : ThreadingContext := ⟨names, program.templates.signatures⟩
  have templates : program.templates.thread context { config with unknownCalls := .error } =
      (context.undefined? (program.templates.flatMap (·.reportedCallees config.indent))).elim
        (program.templates.thread context { config with unknownCalls := .passthrough }) .error := by
    rw [ThreadingContext.undefined?_flatMap]
    refine mapM_eq_elim (fun template member => ?_) fun template _ =>
      Template.exists_thread_passthrough
    obtain ⟨head, body, isCut⟩ := cut template member
    exact isCut.thread_error generated noOpening noClosing
  obtain ⟨results, succeeds⟩ : ∃ results,
      program.templates.thread context { config with unknownCalls := .passthrough } = .ok results :=
    exists_mapM_eq_ok fun template _ => Template.exists_thread_passthrough
  unfold thread reportedCallees
  simp only
  rw [templates, succeeds, main.threadMain_error generated, ThreadingContext.undefined?_append]
  cases context.undefined? (program.templates.flatMap (·.reportedCallees config.indent)) with
  | some error => rfl
  | none => cases context.undefined? program.main.linedCallees <;> rfl

/-- The templates of a program that a well-delimited text describes are cut out of it. -/
theorem exists_isCut_of_mem_ofText
    {source : Text}
    (delimited : source.WellDelimited)
    (extracted : ofText source = .ok program) :
    ∀ template ∈ program.templates, ∃ head body, template.IsCut head body := by
  intro template member
  obtain ⟨partition, _, templates⟩ := exists_partition_templates extracted
  obtain ⟨earlier, segment, later, segments_eq, text_eq⟩ := templates template member
  have segmentDelimited := (partition.wellDelimited delimited).2 segment (by simp [segments_eq])
  exact (partition.fits earlier segment later segments_eq).exists_isCut segmentDelimited.1 text_eq

end Program

/-! ## Compilations -/

section Compilations

variable
  {config : Config}
  {text : Text}
  {names : NameSupply}
  {program : Program}

theorem compile_eq_of_ofText
    (threads : config.mode.threadsOutput = true)
    (named : NameSupply.ofSource config.naming (config.mode.normalize text) = .ok names)
    (extracted : Program.ofText (config.mode.normalize text) = .ok program)
    (unknownCalls : UnknownCalls) :
    compile { config with unknownCalls } text =
      (program.thread names { config with unknownCalls }).map fun threaded =>
        config.mode.finish threaded.text := by
  let policy : Config := { config with unknownCalls }
  have stillThreads : policy.mode.threadsOutput = true := threads
  rw [compile_eq_map_finish stillThreads, Config.threadText, named, extracted]
  change (program.thread names policy >>= _).map _ = (program.thread names policy).map _
  cases program.thread names policy <;> rfl

/-- Refusing undefined templates only adds the check of the calls. -/
theorem compile_error_eq
    (threads : config.mode.threadsOutput = true)
    (delimited : (config.mode.normalize text).WellDelimited)
    (named : NameSupply.ofSource config.naming (config.mode.normalize text) = .ok names)
    (blank : config.indent.isBlank = true)
    (extracted : Program.ofText (config.mode.normalize text) = .ok program) :
    compile { config with unknownCalls := .error } text =
      (ThreadingContext.undefined? ⟨names, program.templates.signatures⟩
        (program.reportedCallees config.indent)).elim
        (compile { config with unknownCalls := .passthrough } text) .error := by
  have noOpening : '{' ∉ config.indent := Text.notMem_of_isBlank blank (by decide)
  have noClosing : '}' ∉ config.indent := Text.notMem_of_isBlank blank (by decide)
  rw [compile_eq_of_ofText threads named extracted, compile_eq_of_ofText threads named extracted,
    Program.thread_error ⟨_, _, named⟩ noOpening noClosing
      (Program.exists_isCut_of_mem_ofText delimited extracted)
      (Program.wellDelimited_of_ofText delimited extracted).2]
  cases ThreadingContext.undefined? ⟨names, program.templates.signatures⟩
    (program.reportedCallees config.indent) <;> rfl

theorem exists_compile_passthrough
    (threads : config.mode.threadsOutput = true)
    (named : NameSupply.ofSource config.naming (config.mode.normalize text) = .ok names)
    (extracted : Program.ofText (config.mode.normalize text) = .ok program) :
    ∃ output, compile { config with unknownCalls := .passthrough } text = .ok output := by
  obtain ⟨threaded, succeeds⟩ := program.exists_thread_passthrough names config
  rw [compile_eq_of_ofText threads named extracted, succeeds]
  exact ⟨_, rfl⟩

end Compilations

/-- A template has no signature exactly if its name is not defined. -/
theorem Templates.isNone_signatures (templates : Templates) (name : Text) :
    (templates.signatures name).isNone = decide (name ∉ templates.map Template.name) := by
  have absent : templates.signatures name = none ↔ name ∉ templates.map Template.name := by
    rw [signatures, Option.map_eq_none_iff, find?, List.find?_eq_none, List.mem_map, not_exists]
    refine forall_congr' fun template => ?_
    rw [not_and, decide_eq_true_eq]
  rw [Bool.eq_iff_iff, Option.isNone_iff_eq_none, absent, decide_eq_true_eq]

/-- The check of the calls of a program finds the first one that is not defined. -/
theorem Program.undefined?_reportedCallees
    (program : Program)
    (names : NameSupply)
    (indent : Text) :
    ((ThreadingContext.undefined? ⟨names, program.templates.signatures⟩
        (program.reportedCallees indent)) = none ∧
      program.callees.find? (fun name => name ∉ program.templates.map Template.name) = none) ∨
    ∃ name line, ThreadingContext.undefined? ⟨names, program.templates.signatures⟩
        (program.reportedCallees indent) = some (.undefinedTemplate name line) ∧
      program.callees.find? (fun name => name ∉ program.templates.map Template.name) =
        some name := by
  have first : program.callees.find? (fun name => name ∉ program.templates.map Template.name) =
      ((program.reportedCallees indent).find? fun (_, callee) =>
        (program.templates.signatures callee).isNone).map Prod.snd := by
    rw [← program.map_snd_reportedCallees indent, List.find?_map]
    congr 2
    funext lined
    exact (program.templates.isNone_signatures lined.2).symm
  rw [first, ThreadingContext.undefined?]
  cases (program.reportedCallees indent).find? fun (_, callee) =>
      (program.templates.signatures callee).isNone with
  | none => exact .inl ⟨rfl, rfl⟩
  | some lined => exact .inr ⟨lined.2, lined.1, rfl, rfl⟩

/-- A compilation that refuses undefined templates fails exactly if the program calls one, and then
at the first such call in the order of the templates and the main text.  If there is none, it gives
what a compilation gives that lets such calls pass; and that one always succeeds. -/
theorem compile_refuses_undefined_calls
    (config : Config)
    (text : Text)
    (threads : config.mode.threadsOutput = true)
    (delimited : (config.mode.normalize text).WellDelimited)
    {names : NameSupply}
    (named : NameSupply.ofSource config.naming (config.mode.normalize text) = .ok names)
    (blank : config.indent.isBlank = true)
    {program : Program}
    (extracted : Program.ofText (config.mode.normalize text) = .ok program) :
    let strict := compile { config with unknownCalls := .error } text
    let lenient := compile { config with unknownCalls := .passthrough } text
    let defined := program.templates.map Template.name
    ((∃ error, strict = .error error) ↔ ∃ name ∈ program.callees, name ∉ defined) ∧
      (∀ name, program.callees.find? (fun name => name ∉ defined) = some name →
        ∃ line, strict = .error (.undefinedTemplate name line)) ∧
      ((∀ name ∈ program.callees, name ∈ defined) → strict = lenient) ∧
      ∃ output, lenient = .ok output := by
  intro strict lenient defined
  have checked : strict = _ := compile_error_eq threads delimited named blank extracted
  obtain ⟨output, succeeds⟩ : ∃ output, lenient = .ok output :=
    exists_compile_passthrough threads named extracted
  rcases program.undefined?_reportedCallees names config.indent with
    ⟨none, noName⟩ | ⟨name, line, found, first⟩
  · have same : strict = lenient := by rw [checked, none, Option.elim_none]
    rw [List.find?_eq_none] at noName
    have all : ∀ name ∈ program.callees, name ∈ defined := by
      intro name member
      by_contra undefined
      exact noName name member (decide_eq_true undefined)
    refine ⟨⟨?_, ?_⟩, ?_, fun _ => same, output, succeeds⟩
    · rintro ⟨error, fails⟩
      rw [same, succeeds] at fails
      cases fails
    · rintro ⟨name, member, undefined⟩
      exact absurd (all name member) undefined
    · intro name found
      exact absurd (List.find?_some found) (noName name (List.mem_of_find?_eq_some found))
  · have fails : strict = .error (.undefinedTemplate name line) := by
      rw [checked, found, Option.elim_some]
    have undefined : name ∉ defined := by
      have accepted := List.find?_some first
      exact of_decide_eq_true accepted
    have member := List.mem_of_find?_eq_some first
    refine ⟨⟨fun _ => ⟨name, member, undefined⟩, fun _ => ⟨_, fails⟩⟩, ?_, ?_, output, succeeds⟩
    · intro other foundOther
      obtain rfl : name = other := Option.some.inj (first.symm.trans foundOther)
      exact ⟨line, fails⟩
    · intro all
      exact absurd (all name member) undefined

/-- The first undefined template is called in a print of a template, which stands behind a call of
another one in the main text. -/
theorem compile_refuses_undefined_calls_print :
    let text : Text :=
      "execTemplate \"b\"\ndefine \"f\"\nprint (execTemplate \"a\")\nend".toList
    let config : Config := { mode := .runtime, naming := .fresh }
    (config.mode.normalize text).WellDelimited ∧
      (∃ line, compile { config with unknownCalls := .error } text =
        .error (.undefinedTemplate "a".toList line)) ∧
      ∃ output, compile { config with unknownCalls := .passthrough } text = .ok output := by
  intro text config
  have delimited : (config.mode.normalize text).WellDelimited :=
    ⟨Statement.form.split (config.mode.normalize text), by decide +kernel,
      Statement.form.join_split _⟩
  have first : (Program.ofText (config.mode.normalize text)).map (fun program =>
      program.callees.find? fun name => name ∉ program.templates.map Template.name) =
        .ok (some "a".toList) := by
    decide +kernel
  cases extracted : Program.ofText (config.mode.normalize text) with
  | error error =>
      rw [extracted] at first
      cases first
  | ok program =>
      rw [extracted] at first
      obtain ⟨_, fails, _, succeeds⟩ :=
        compile_refuses_undefined_calls config text rfl delimited rfl (by decide) extracted
      exact ⟨delimited, fails "a".toList (Except.ok.inj first), succeeds⟩

end OutputThreading
