import OutputThreading.Proofs.Program.Errors
import OutputThreading.Proofs.Program.UndefinedCalls

/-!
# The lines of calls of undefined templates

The calls of a definition are checked when it has been cut out of its text and prepared, those of the
main text when all definitions have been cut out of it.  The line that is reported for a call is
counted in what is checked (`Partition.Reports`): it is the line of the source for a call in front of
all definitions only.
-/

namespace OutputThreading

/-! ## The line that is reported -/

/-- The line that is reported for a call in a statement of a partitioned text, which stands behind
`before`. -/
inductive Partition.Reports
    {source : Text}
    (partition : Partition source)
    (templates : Templates)
    (indent : Text)
    (statement : Statement) : (before : Text) → (line : Nat) → Prop
  /-- In front of all definitions the line is that of the source. -/
  | front
      {inside rest : Text}
      (front_eq : partition.front = inside ++ statement.text ++ rest) :
      Reports partition templates indent statement inside (1 + inside.breaks)
  /-- In the main text behind a definition the lines of the definitions do not count. -/
  | main
      {earlier later : List Segment}
      {segment : Segment}
      {inside rest : Text}
      (segments_eq : partition.segments = earlier ++ segment :: later)
      (main_eq : segment.main = inside ++ statement.text ++ rest) :
      Reports partition templates indent statement
        (partition.front ++ Segment.join earlier ++ (segment.text ++ segment.gap) ++ inside)
        (1 + Text.breaks (partition.front ++ earlier.flatMap Segment.main ++ inside))
  /-- In a definition the lines are counted from its head, and lines added to it count. -/
  | definition
      {earlier later : List Segment}
      {segment : Segment}
      {template : Template}
      {inside rest : Text}
      (segments_eq : partition.segments = earlier ++ segment :: later)
      (member : template ∈ templates)
      (same : template.text = segment.text)
      (text_eq : segment.text = inside ++ statement.text ++ rest) :
      Reports partition templates indent statement
        (partition.front ++ Segment.join earlier ++ inside)
        (1 + inside.breaks + template.addedLines indent)

/-- The statement stands in the source behind `before`. -/
theorem Partition.Reports.exists_eq_append
    {source : Text}
    {partition : Partition source}
    {templates : Templates}
    {indent : Text}
    {statement : Statement}
    {before : Text}
    {line : Nat}
    (reports : partition.Reports templates indent statement before line) :
    ∃ after, source = before ++ statement.text ++ after := by
  have source_eq := partition.source_eq
  cases reports with
  | @front _ rest front_eq =>
      refine ⟨rest ++ Segment.join partition.segments, source_eq.trans ?_⟩
      rw [front_eq]
      simp only [List.append_assoc]
  | @main earlier later segment inside rest segments_eq main_eq =>
      refine ⟨rest ++ Segment.join later, source_eq.trans ?_⟩
      rw [segments_eq]
      simp only [Segment.join, List.flatMap_append, List.flatMap_cons, Segment.whole, main_eq,
        List.append_assoc]
  | @definition earlier later segment template inside rest segments_eq member same text_eq =>
      refine ⟨rest ++ (segment.gap ++ segment.main) ++ Segment.join later, source_eq.trans ?_⟩
      rw [segments_eq]
      simp only [Segment.join, List.flatMap_append, List.flatMap_cons, Segment.whole, text_eq,
        List.append_assoc]

/-! ## Calls in the main text -/

/-- A call in the main text behind definitions stands behind one of them. -/
theorem Segment.exists_of_mem_linedCalleesFrom
    {segments : List Segment}
    (delimited : ∀ segment ∈ segments, segment.main.WellDelimited)
    {start line : Nat}
    {name : Text}
    (member : (line, name) ∈ Text.linedCalleesFrom start (segments.flatMap Segment.main)) :
    ∃ (earlier later : List Segment) (segment : Segment) (inside rest : Text)
      (statement : Statement),
      segments = earlier ++ segment :: later ∧
        segment.main = inside ++ statement.text ++ rest ∧ name ∈ statement.callees ∧
        line = start + Text.breaks (earlier.flatMap Segment.main ++ inside) := by
  induction segments generalizing start with
  | nil =>
      rw [List.flatMap_nil, Text.linedCalleesFrom_nil] at member
      cases member
  | cons segment others inductionHypothesis =>
      rw [List.forall_mem_cons] at delimited
      rw [List.flatMap_cons, delimited.1.linedCalleesFrom_append
        (Segment.wellDelimited_flatMap delimited.2), List.mem_append] at member
      rcases member with member | member
      · obtain ⟨inside, statement, rest, main_eq, called, line_eq⟩ :=
          Text.exists_of_mem_linedCalleesFrom member
        exact ⟨[], others, segment, inside, rest, statement, rfl, main_eq, called, line_eq⟩
      · obtain ⟨earlier, later, found, inside, rest, statement, rfl, main_eq, called, line_eq⟩ :=
          inductionHypothesis delimited.2 member
        refine ⟨segment :: earlier, later, found, inside, rest, statement, rfl, main_eq, called, ?_⟩
        rw [line_eq, List.flatMap_cons, List.append_assoc, Text.breaks_append segment.main]
        omega

namespace Partition

variable {source : Text}

/-- A call in the main text is reported on its line of the main text. -/
theorem exists_reports_of_mem_main
    (partition : Partition source)
    (delimited : source.WellDelimited)
    (templates : Templates)
    (indent : Text)
    {line : Nat}
    {name : Text}
    (member : (line, name) ∈ partition.main.linedCallees) :
    ∃ statement before, name ∈ statement.callees ∧
      partition.Reports templates indent statement before line := by
  obtain ⟨frontDelimited, segmentsDelimited⟩ := partition.wellDelimited delimited
  have mains : ∀ segment ∈ partition.segments, segment.main.WellDelimited :=
    fun segment isSegment => (segmentsDelimited segment isSegment).2
  rw [main, Text.linedCallees, frontDelimited.linedCalleesFrom_append
    (Segment.wellDelimited_flatMap mains), List.mem_append] at member
  rcases member with member | member
  · obtain ⟨inside, statement, rest, front_eq, called, rfl⟩ :=
      Text.exists_of_mem_linedCalleesFrom member
    exact ⟨statement, inside, called, .front front_eq⟩
  · obtain ⟨earlier, later, segment, inside, rest, statement, segments_eq, main_eq, called,
      line_eq⟩ := Segment.exists_of_mem_linedCalleesFrom mains member
    have counted : line =
        1 + Text.breaks (partition.front ++ earlier.flatMap Segment.main ++ inside) := by
      rw [line_eq, List.append_assoc, Text.breaks_append partition.front]
      omega
    rw [counted]
    exact ⟨statement, _, called, .main segments_eq main_eq⟩

end Partition

/-- A call that is reported for a program stands in the source of the program. -/
theorem Program.exists_reports
    {source : Text}
    {program : Program}
    (delimited : source.WellDelimited)
    (extracted : ofText source = .ok program)
    {indent : Text}
    {line : Nat}
    {name : Text}
    (member : (line, name) ∈ program.reportedCallees indent) :
    ∃ (partition : Partition source) (statement : Statement) (before : Text),
      name ∈ statement.callees ∧
        partition.Reports program.templates indent statement before line := by
  obtain ⟨partition, main_eq, templates⟩ := exists_partition_templates extracted
  rw [reportedCallees, List.mem_append, List.mem_flatMap] at member
  rcases member with ⟨template, isTemplate, member⟩ | member
  · obtain ⟨⟨place, callee⟩, lined, equal⟩ := List.mem_map.mp member
    obtain ⟨rfl, rfl⟩ := Prod.mk.inj equal
    obtain ⟨inside, statement, rest, text_eq, called, rfl⟩ :=
      Text.exists_of_mem_linedCalleesFrom lined
    obtain ⟨earlier, segment, later, segments_eq, same⟩ := templates template isTemplate
    exact ⟨partition, statement, _, called,
      .definition segments_eq isTemplate same (same.symm.trans text_eq)⟩
  · rw [main_eq] at member
    obtain ⟨statement, before, called, reports⟩ :=
      partition.exists_reports_of_mem_main delimited program.templates indent member
    exact ⟨partition, statement, before, called, reports⟩

/-! ## Compilations -/

/-- A compilation that fails at an undefined template reports a call of it, on the line of that call
in the cut out definition, with the lines added to it, or in the main text without definitions. -/
theorem compile_reports_undefined_call
    (config : Config)
    (text : Text)
    (strict : config.unknownCalls = .error)
    (delimited : (config.mode.normalize text).WellDelimited)
    (blank : config.indent.isBlank = true)
    {name : Text}
    {line : Nat}
    (failed : compile config text = .error (.undefinedTemplate name line)) :
    ∃ (program : Program) (partition : Partition (config.mode.normalize text))
      (statement : Statement) (before after : Text),
      Program.ofText (config.mode.normalize text) = .ok program ∧
        name ∉ program.templates.map Template.name ∧
        config.mode.normalize text = before ++ statement.text ++ after ∧
        name ∈ statement.callees ∧
        partition.Reports program.templates config.indent statement before line := by
  obtain ⟨threads, naming | extraction | ⟨names, program, named, extracted, _⟩⟩ :=
    error_cases_of_compile failed
  · obtain ⟨_, _, absurd, _⟩ := NameSupply.exists_of_ofSource_eq_error naming
    cases absurd
  · obtain ⟨_, _, _, absurd, _⟩ := Program.exists_of_ofText_eq_error extraction
    cases absurd
  · have same : { config with unknownCalls := .error } = config := by rw [← strict]
    have checked := compile_error_eq threads delimited named blank extracted
    rw [same, failed] at checked
    obtain ⟨output, succeeds⟩ := exists_compile_passthrough threads named extracted
    cases found : ThreadingContext.undefined? ⟨names, program.templates.signatures⟩
        (program.reportedCallees config.indent) with
    | none =>
        rw [found, Option.elim_none, succeeds] at checked
        cases checked
    | some error =>
        rw [found, Option.elim_some] at checked
        obtain ⟨callee, place, rfl, member, undefined⟩ :=
          ThreadingContext.exists_of_undefined?_eq_some found
        obtain ⟨rfl, rfl⟩ := CompileError.undefinedTemplate.inj (Except.error.inj checked)
        rw [Templates.isNone_signatures, decide_eq_true_eq] at undefined
        obtain ⟨partition, statement, before, called, reports⟩ :=
          Program.exists_reports delimited extracted member
        obtain ⟨after, source_eq⟩ := reports.exists_eq_append
        exact ⟨program, partition, statement, before, after, extracted, undefined, source_eq,
          called, reports⟩

/-- A call on the third line, in a template that prints, is reported on the fourth, since the line of
the declaration counts. -/
theorem compile_reports_undefined_call_printing :
    let text : Text := "define \"f\"\nprint 1\nexecTemplate \"g\"\nend".toList
    let config : Config := { mode := .runtime, naming := .fresh, unknownCalls := .error }
    compile config text = .error (.undefinedTemplate "g".toList 4) ∧
      ∃ (program : Program) (partition : Partition (config.mode.normalize text))
        (statement : Statement) (before after : Text),
        "g".toList ∉ program.templates.map Template.name ∧
          config.mode.normalize text = before ++ statement.text ++ after ∧
          "g".toList ∈ statement.callees ∧
          partition.Reports program.templates config.indent statement before 4 := by
  intro text config
  have delimited : (config.mode.normalize text).WellDelimited :=
    ⟨Statement.form.split (config.mode.normalize text), by decide +kernel,
      Statement.form.join_split _⟩
  have failed : compile config text = .error (.undefinedTemplate "g".toList 4) := by
    decide +kernel
  obtain ⟨program, partition, statement, before, after, _, undefined, source_eq, called, reports⟩ :=
    compile_reports_undefined_call config text rfl delimited (by decide) failed
  exact ⟨failed, program, partition, statement, before, after, undefined, source_eq, called, reports⟩

/-- A call in a definition on the third line is reported on the second line of the text, where no
call stands. -/
theorem undefined_call_reported_off_its_line :
    let text : Text := "$a := 1\ndefine \"f\"\nexecTemplate \"nope\"\nend\n".toList
    let config : Config := { mode := .conceptual, unknownCalls := .error }
    compile config text = .error (.undefinedTemplate "nope".toList 2) ∧
      (config.mode.normalize text).lines.map Text.callees = [[], [], ["nope".toList], []] := by
  decide +kernel

end OutputThreading
