import OutputThreading.Compile
import OutputThreading.Proofs.Program.Partition
import OutputThreading.Proofs.Template.Passes

/-!
# Pure templates are relocated as they stand

Promotion and threading see the same calls: what a pure template calls is pure or not defined, or
else the template had been promoted.  So threading leaves the text of a pure template alone
(`Program.eq_of_thread_pure`), and a compilation that adds no layout of its own only moves it behind
the templates that produce output (`compile_relocates_pure`).
-/

namespace OutputThreading

/-! ## Templates in their text -/

namespace Partition

variable {source : Text}

theorem text_infix
    (partition : Partition source)
    {segment : Segment}
    (member : segment ∈ partition.segments) :
    segment.text <:+: source := by
  obtain ⟨earlier, later, segments_eq⟩ := List.append_of_mem member
  refine ⟨partition.front ++ Segment.join earlier,
    segment.gap ++ segment.main ++ Segment.join later, ?_⟩
  refine Eq.trans ?_ partition.source_eq.symm
  rw [segments_eq]
  simp [Segment.join, Segment.whole]

theorem exists_of_mem_definitions
    (partition : Partition source)
    {line : Nat}
    {template : Template}
    (member : template ∈ partition.definitions line) :
    ∃ segment ∈ partition.segments, ∃ place,
      template = Program.definition segment.name segment.text place := by
  obtain ⟨earlier, later, definitions_eq⟩ := List.append_of_mem member
  obtain ⟨front, segment, behind, segments_eq, _, template_eq⟩ :=
    Segment.exists_eq_append_of_definitions_eq_append definitions_eq
  exact ⟨segment, by simp [segments_eq], _, template_eq⟩

end Partition

theorem Signature.isProducing_ofText (text : Text) :
    (ofText text).isProducing = Print.form.occursIn text := by
  by_cases prints : Print.form.occursIn text = true <;> simp [ofText, isProducing, prints]

namespace Program

/-- The text of an extracted template stands in the source. -/
theorem text_infix_of_mem_ofText
    {source : Text}
    {program : Program}
    (extracted : ofText source = .ok program)
    {template : Template}
    (member : template ∈ program.templates) :
    template.text <:+: source := by
  obtain ⟨partition, rfl⟩ := exists_partition_of_ofText extracted
  obtain ⟨kept, isKept, output, rfl⟩ := Templates.exists_of_mem_promote member
  obtain ⟨segment, isSegment, _, rfl⟩ :=
    partition.exists_of_mem_definitions (Templates.mem_of_mem_keepFirst isKept)
  exact partition.text_infix isSegment

/-- An extracted template produces output exactly if it reaches a template that prints. -/
theorem isProducing_iff_of_ofText
    {source : Text}
    {program : Program}
    (extracted : ofText source = .ok program)
    {template : Template}
    (member : template ∈ program.templates) :
    template.signature.isProducing = true ↔ program.templates.ReachesPrint template.name := by
  obtain ⟨partition, rfl⟩ := exists_partition_of_ofText extracted
  refine Templates.isProducing_promote_iff (Templates.nodup_map_name_keepFirst _) ?_ member
  intro kept isKept
  obtain ⟨segment, _, _, rfl⟩ :=
    partition.exists_of_mem_definitions (Templates.mem_of_mem_keepFirst isKept)
  exact Signature.isProducing_ofText segment.text

/-! ## Calls of pure templates -/

/-- A template whose calls are threaded is one that reaches a print. -/
theorem reachesPrint_of_threads
    {source : Text}
    {program : Program}
    (extracted : ofText source = .ok program)
    {names : NameSupply}
    {callee : Text}
    (threads : ThreadingContext.threads ⟨names, program.templates.signatures⟩ callee = true) :
    program.templates.ReachesPrint callee := by
  cases found : program.templates.find? callee with
  | none => simp [ThreadingContext.threads, Templates.signatures, found] at threads
  | some template =>
      obtain rfl := Templates.name_eq_of_find? found
      refine (isProducing_iff_of_ofText extracted (List.mem_of_find?_eq_some found)).mp ?_
      simpa [ThreadingContext.threads, Templates.signatures, found] using threads

end Program

/-- A text without calls to thread stays as it is. -/
theorem ThreadingContext.threadKnownCalls_eq_self
    {context : ThreadingContext}
    {text : Text}
    (unthreaded : ∀ callee ∈ text.callees, context.threads callee = false) :
    context.threadKnownCalls text = text := by
  refine Form.replaceInLine_eq_self _ fun statement member line => ?_
  have none : context.setupStatements statement = [] := by
    refine (context.setupStatements_eq_nil_iff statement).mpr fun call called => ?_
    exact unthreaded call.callee
      (List.mem_flatMap.mpr ⟨statement, member, List.mem_map_of_mem called⟩)
  rw [threadStatement, setup_eq_map_text, none]
  rfl

namespace Program

/-- Threading leaves a pure template alone. -/
theorem eq_of_thread_pure
    {source : Text}
    {program : Program}
    (extracted : ofText source = .ok program)
    {template : Template}
    (isPure : template ∈ program.templates.pure)
    {names : NameSupply}
    {config : Config}
    {result : Template}
    (succeeds : template.thread ⟨names, program.templates.signatures⟩ config = .ok result) :
    result = template := by
  obtain ⟨member, noOutput⟩ := List.mem_filter.mp isPure
  have notProducing : ¬template.signature.isProducing = true := by simpa using noOutput
  have unthreaded : ∀ callee ∈ template.text.callees,
      ThreadingContext.threads ⟨names, program.templates.signatures⟩ callee = false := by
    intro callee called
    rw [Bool.eq_false_iff]
    intro threads
    have reaches := (reachesPrint_of_threads extracted threads).of_mem_callees member called
    exact notProducing ((isProducing_iff_of_ofText extracted member).mpr reaches)
  rw [Template.eq_of_thread succeeds, if_neg notProducing,
    ThreadingContext.threadKnownCalls_eq_self unthreaded]

/-- A threaded program lists the threaded texts of its producing templates, then its pure templates
as they are, and the threaded main text. -/
theorem exists_text_of_thread
    {source : Text}
    {program : Program}
    (extracted : ofText source = .ok program)
    {names : NameSupply}
    {config : Config}
    {threaded : Program}
    (threads : program.thread names config = .ok threaded) :
    ∃ rewritten main,
      List.Forall₂ (fun template result =>
          template.thread ⟨names, program.templates.signatures⟩ config = .ok result)
        program.templates.producing rewritten ∧
      program.main.threadMain ⟨names, program.templates.signatures⟩ config.unknownCalls = .ok main ∧
      threaded.text = rewritten.flatMap (fun template => template.text ++ ['\n']) ++
        program.templates.pure.flatMap (fun template => template.text ++ ['\n']) ++ main := by
  obtain ⟨results, threadsTemplates, threads⟩ := bind_eq_ok_iff.mp threads
  obtain ⟨main, threadsMain, equal⟩ := bind_eq_ok_iff.mp threads
  obtain rfl := pure_eq_ok_iff.mp equal
  have each := Templates.forall₂_of_thread threadsTemplates
  have producing : List.Forall₂ _ program.templates.producing results.producing :=
    List.rel_filter (fun _ _ succeeds => by rw [Template.eq_of_thread succeeds]) each
  have pure : List.Forall₂ _ program.templates.pure results.pure :=
    List.rel_filter (fun _ _ succeeds => by rw [Template.eq_of_thread succeeds]) each
  -- the pure templates among the results are those of the program
  have same : program.templates.pure = results.pure := by
    rw [← List.forall₂_eq_eq_eq]
    refine ((List.forall₂_and_left _ _).mpr ⟨fun _ isPure => isPure, pure⟩).imp ?_
    rintro template result ⟨isPure, succeeds⟩
    exact (eq_of_thread_pure extracted isPure succeeds).symm
  refine ⟨results.producing, main, producing, threadsMain, ?_⟩
  rw [text, List.flatMap_append, ← same]

end Program

/-! ## Compilation -/

/-- A compilation for reading threads the wrapped source and lays out nothing. -/
theorem exists_of_compile_conceptual
    {config : Config}
    {source output : Text}
    (conceptual : config.mode = .conceptual)
    (compiled : compile config source = .ok output) :
    ∃ names program threaded,
      NameSupply.ofSource config.naming source.wrapLines = .ok names ∧
      Program.ofText source.wrapLines = .ok program ∧
      program.thread names config = .ok threaded ∧ output = threaded.text := by
  unfold compile at compiled
  rw [conceptual] at compiled
  obtain ⟨text, threads, finished⟩ := bind_eq_ok_iff.mp compiled
  obtain ⟨names, made, extracts⟩ := bind_eq_ok_iff.mp threads
  obtain ⟨program, extracted, threads⟩ := bind_eq_ok_iff.mp extracts
  obtain ⟨threaded, succeeds, text_eq⟩ := bind_eq_ok_iff.mp threads
  refine ⟨names, program, threaded, made, extracted, succeeds, ?_⟩
  rw [← pure_eq_ok_iff.mp finished, ← pure_eq_ok_iff.mp text_eq]
  rfl

/-- Templates that cannot reach a print are relocated as they stand.  A compilation for reading
gives the threaded texts of the templates that reach one, then the others as they stand in the
source, and the threaded main text; and threading leaves a template alone that extraction found
pure. -/
theorem compile_relocates_pure
    {config : Config}
    {source output : Text}
    (conceptual : config.mode = .conceptual)
    (compiled : compile config source = .ok output) :
    (∃ (partition : Partition source.wrapLines) (templates : Templates) (names : NameSupply)
      (rewritten : Templates) (main : Text),
      templates = (partition.definitions 1).keepFirst.promote ∧
      Program.ofText source.wrapLines = .ok ⟨templates, partition.main⟩ ∧
      NameSupply.ofSource config.naming source.wrapLines = .ok names ∧
      List.Forall₂ (fun template result =>
          template.thread ⟨names, templates.signatures⟩ config = .ok result)
        templates.producing rewritten ∧
      partition.main.threadMain ⟨names, templates.signatures⟩ config.unknownCalls = .ok main ∧
      output = rewritten.flatMap (fun template => template.text ++ ['\n']) ++
        templates.pure.flatMap (fun template => template.text ++ ['\n']) ++ main ∧
      ∀ template ∈ templates, template.text <:+: source.wrapLines ∧
        (template ∈ templates.producing ↔ templates.ReachesPrint template.name) ∧
        (template ∈ templates.pure ↔ ¬templates.ReachesPrint template.name)) ∧
    ∀ (text : Text) (program : Program), Program.ofText text = .ok program →
      ∀ template ∈ program.templates.pure,
      ∀ (names : NameSupply) (config : Config) (result : Template),
        template.thread ⟨names, program.templates.signatures⟩ config = .ok result →
          result = template := by
  refine ⟨?_, fun text program extracted template isPure names config result =>
    Program.eq_of_thread_pure extracted isPure⟩
  obtain ⟨names, program, threaded, made, extracted, threads, rfl⟩ :=
    exists_of_compile_conceptual conceptual compiled
  obtain ⟨rewritten, main, producing, threadsMain, text_eq⟩ :=
    Program.exists_text_of_thread extracted threads
  obtain ⟨partition, rfl⟩ := Program.exists_partition_of_ofText extracted
  refine ⟨partition, _, names, rewritten, main, rfl, extracted, made, producing, threadsMain,
    text_eq, fun template member => ?_⟩
  have reaches := Program.isProducing_iff_of_ofText extracted member
  refine ⟨Program.text_infix_of_mem_ofText extracted member, ?_, ?_⟩
  · rw [Templates.producing, List.mem_filter, ← reaches]
    exact and_iff_right member
  · rw [Templates.pure, List.mem_filter, ← reaches, Bool.not_eq_true']
    exact (and_iff_right member).trans (Bool.not_eq_true _).symm.to_iff

/-- A template that calls one that prints moves in front of a template without output, which it
calls as well and which calls one that is not defined. -/
theorem compile_relocates_pure_chain :
    let source : Text :=
      "define \"lone\"\nexecTemplate \"none\"\nend\n".toList ++
        "define \"outer\"\nexecTemplate \"inner\"\nexecTemplate \"lone\"\nend\n".toList ++
        "define \"inner\"\nprint 1\nend\nexecTemplate \"outer\"".toList
    let lone : Text :=
      (Statement.mk "define \"lone\"".toList).text ++ ['\n'] ++
        (Statement.mk "execTemplate \"none\"".toList).text ++ ['\n'] ++ Marker.closer
    let config : Config := { mode := .conceptual }
    config.mode = .conceptual ∧
      ∃ output, compile config source = .ok output ∧
        ∃ (rewritten : Templates) (main : Text), rewritten.length = 2 ∧
          output = rewritten.flatMap (fun template => template.text ++ ['\n']) ++
            (lone ++ ['\n']) ++ main := by
  intro source lone config
  have succeeds : (compile config source).toOption.isSome = true := by decide +kernel
  have parts : (Program.ofText source.wrapLines).map (fun program =>
      (program.templates.producing.length, program.templates.pure.map Template.text)) =
      .ok (2, [lone]) := by
    decide +kernel
  obtain ⟨output, compiled⟩ : ∃ output, compile config source = .ok output := by
    cases result : compile config source with
    | error error =>
        rw [result] at succeeds
        cases succeeds
    | ok output => exact ⟨output, rfl⟩
  obtain ⟨⟨_, templates, _, rewritten, main, _, extracted, _, producing, _, text_eq, _⟩, _⟩ :=
    compile_relocates_pure rfl compiled
  rw [extracted] at parts
  obtain ⟨count, texts⟩ := Prod.mk.inj (Except.ok.inj parts)
  obtain ⟨only, pure_eq, only_eq⟩ := List.map_eq_singleton_iff.mp texts
  have pureTemplates : templates.pure = [only] := pure_eq
  refine ⟨rfl, output, compiled, rewritten, main, producing.length_eq.symm.trans count, ?_⟩
  rw [text_eq, pureTemplates, List.flatMap_singleton, only_eq]

end OutputThreading
