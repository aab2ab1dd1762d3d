import OutputThreading.Compile
import OutputThreading.Proofs.NameSupply.Capture
import OutputThreading.Proofs.Program.Partition

/-!
# Where errors come from

Each of the three errors belongs to one pass: a reserved variable is found when the names are
generated, a block that is not closed when the definitions are taken out, and an undefined template
when the calls are threaded (`error_cases_of_compile`).  The first two name a place of the normalized
text (`place_of_compile_eq_error`).
-/

namespace OutputThreading

/-- A computation in steps fails exactly if one of the steps does. -/
theorem bind_eq_error_iff
    {ε α β : Type}
    {first : Except ε α}
    {next : α → Except ε β}
    {error : ε} :
    (first >>= next) = .error error ↔
      first = .error error ∨ ∃ value, first = .ok value ∧ next value = .error error := by
  cases first <;> simp [bind, Except.bind]

/-! ## Names -/

/-- The names cannot be generated if the text uses a reserved variable; the error names one. -/
theorem NameSupply.exists_of_ofSource_eq_error
    {naming : Naming}
    {text : Text}
    {error : CompileError}
    (failed : ofSource naming text = .error error) :
    ∃ (token : Variable) (before : Text),
      error = .reservedVariable token.text (1 + before.breaks) ∧ token.StandsBehind before text := by
  cases naming with
  | fresh => cases failed
  | reserved =>
      simp only [ofSource] at failed
      split at failed
      next line token found =>
        obtain ⟨before, first, rfl⟩ := exists_isFirstReserved_of_reservedVariable? found
        exact ⟨token, before, (Except.error.inj failed).symm, first.1⟩
      next => cases failed

/-! ## Definitions -/

/-- The block that is to blame was open before or is opened by one of the markers. -/
theorem Block.Blames.mem_or_mem
    {opened : List OpenBlock}
    {markers : List (Nat × Marker)}
    {blamed : OpenBlock}
    (blames : Blames opened markers blamed) :
    (blamed.line, .opens blamed.keyword) ∈ markers ∨ blamed ∈ opened := by
  rcases blames with ⟨front, keyword, line, rest, rfl, _, _, rfl⟩ | ⟨_, passed, _, member⟩
  · exact .inl (List.mem_append_right front List.mem_cons_self)
  · exact .inr (List.mem_of_getElem? member)

namespace Program

/-- A line break that is taken off still counts. -/
theorem linedFrom_dropBreak (line : Nat) (pieces : List (Piece Marker)) :
    Marker.form.linedFrom (line + leadingBreaks pieces) (dropBreak pieces) =
      Marker.form.linedFrom line pieces := by
  match pieces with
  | [] => rfl
  | .phrase marker :: pieces => rfl
  | .char c :: pieces =>
      by_cases isBreak : c = '\n'
      · subst isBreak
        rfl
      · have kept : dropBreak (.char c :: pieces) = .char c :: pieces := by
          simp [dropBreak, isBreak]
        have none : leadingBreaks (.char c :: pieces) = 0 := by
          simp [leadingBreaks, isBreak]
        rw [kept, none, Nat.add_zero]

/-- A definition that cannot be taken out is not closed, or an opener behind it is not. -/
theorem exists_of_takeDefinitions_eq_error
    {line : Nat}
    {pieces : List (Piece Marker)}
    {error : CompileError}
    (failed : takeDefinitions line pieces = .error error) :
    ∃ block : OpenBlock, error = .unclosedBlock block ∧
      (block.line, .opens block.keyword) ∈ Marker.form.linedFrom line pieces := by
  fun_induction takeDefinitions line pieces with
  | case1 => cases failed
  | case2 line c pieces inductionHypothesis =>
      exact inductionHypothesis (Block.eq_error_of_bind failed fun _ => ⟨_, rfl⟩)
  | case3 line marker pieces unnamed inductionHypothesis =>
      obtain ⟨block, error_eq, member⟩ :=
        inductionHypothesis (Block.eq_error_of_bind failed fun _ => ⟨_, rfl⟩)
      refine ⟨block, error_eq, ?_⟩
      rw [Block.linedFrom_phrase]
      exact List.mem_cons_of_mem _ member
  | case4 line marker pieces name named block unclosed =>
      refine ⟨block, (Except.error.inj failed).symm, ?_⟩
      obtain ⟨rfl, _⟩ := definedName?_eq_some_iff.mp named
      rw [Block.linedFrom_phrase, List.mem_cons]
      rcases (Block.blames_of_close_eq_error unclosed).mem_or_mem with member | member
      · exact .inr member
      · left
        rw [List.mem_singleton.mp member]
  | case5 line marker pieces name named inside behind closed body =>
      rename_i inductionHypothesis
      obtain ⟨block, error_eq, member⟩ :=
        inductionHypothesis (Block.eq_error_of_bind failed fun _ => ⟨_, rfl⟩)
      refine ⟨block, error_eq, ?_⟩
      rw [linedFrom_dropBreak] at member
      rw [Block.linedFrom_phrase, ← Block.append_eq_of_close closed, Form.linedFrom_append]
      apply List.mem_cons_of_mem
      apply List.mem_append_right
      exact member

/-- A text from which the definitions cannot be taken out has an opener without an end. -/
theorem exists_of_ofText_eq_error
    {text : Text}
    {error : CompileError}
    (failed : ofText text = .error error) :
    ∃ (keyword : Keyword) (before after : Text),
      error = .unclosedBlock ⟨keyword, 1 + before.breaks⟩ ∧
        text = before ++ keyword.opener ++ after := by
  have taken := Block.eq_error_of_bind failed fun _ => ⟨_, rfl⟩
  obtain ⟨⟨keyword, line⟩, rfl, member⟩ := exists_of_takeDefinitions_eq_error taken
  obtain ⟨before, after, text_eq, rfl⟩ := Marker.form.exists_eq_append_of_mem_linedFrom member
  exact ⟨keyword, before, after, rfl, text_eq⟩

end Program

/-! ## Calls -/

/-- Threading calls fails at an undefined template only. -/
theorem ThreadingContext.exists_of_threadCalls_eq_error
    {context : ThreadingContext}
    {unknownCalls : UnknownCalls}
    {text : Text}
    {error : CompileError}
    (failed : context.threadCalls unknownCalls text = .error error) :
    ∃ name line, error = .undefinedTemplate name line := by
  unfold threadCalls at failed
  split at failed
  next found =>
    obtain ⟨lined, _, called⟩ := List.exists_of_findSome?_eq_some found
    obtain ⟨name, _, rfl⟩ := Option.map_eq_some_iff.mp called
    exact ⟨name, lined.1, (Except.error.inj failed).symm⟩
  next => cases failed

theorem Templates.exists_of_thread_eq_error
    {context : ThreadingContext}
    {config : Config}
    {templates : Templates}
    {error : CompileError}
    (failed : templates.thread context config = .error error) :
    ∃ name line, error = .undefinedTemplate name line := by
  unfold thread at failed
  induction templates with
  | nil => cases failed
  | cons template others inductionHypothesis =>
      rw [List.mapM_cons] at failed
      rcases bind_eq_error_iff.mp failed with first | ⟨result, _, failed⟩
      · unfold Template.thread at first
        split at first
        · exact ThreadingContext.exists_of_threadCalls_eq_error
            (Block.eq_error_of_bind first fun _ => ⟨_, rfl⟩)
        · exact ThreadingContext.exists_of_threadCalls_eq_error
            (Block.eq_error_of_bind first fun _ => ⟨_, rfl⟩)
      · exact inductionHypothesis (Block.eq_error_of_bind failed fun _ => ⟨_, rfl⟩)

theorem Program.exists_of_thread_eq_error
    {program : Program}
    {names : NameSupply}
    {config : Config}
    {error : CompileError}
    (failed : program.thread names config = .error error) :
    ∃ name line, error = .undefinedTemplate name line := by
  rcases bind_eq_error_iff.mp failed with templates | ⟨_, _, failed⟩
  · exact Templates.exists_of_thread_eq_error templates
  · have main := Block.eq_error_of_bind failed fun _ => ⟨_, rfl⟩
    exact ThreadingContext.exists_of_threadCalls_eq_error
      (Block.eq_error_of_bind main fun _ => ⟨_, rfl⟩)

/-! ## Compilations -/

/-- The pass in which a compilation fails. -/
theorem error_cases_of_compile
    {config : Config}
    {text : Text}
    {error : CompileError}
    (failed : compile config text = .error error) :
    config.mode.threadsOutput = true ∧
      (NameSupply.ofSource config.naming (config.mode.normalize text) = .error error ∨
        Program.ofText (config.mode.normalize text) = .error error ∨
        ∃ names program,
          NameSupply.ofSource config.naming (config.mode.normalize text) = .ok names ∧
          Program.ofText (config.mode.normalize text) = .ok program ∧
          program.thread names config = .error error) := by
  by_cases threads : config.mode.threadsOutput = true
  · refine ⟨threads, ?_⟩
    have threading : config.threadText (config.mode.normalize text) = .error error := by
      rw [compile_eq_map_finish threads] at failed
      cases threaded : config.threadText (config.mode.normalize text) with
      | error found =>
          rw [threaded] at failed
          exact failed
      | ok result =>
          rw [threaded] at failed
          cases failed
    rcases bind_eq_error_iff.mp threading with naming | ⟨names, named, threading⟩
    · exact .inl naming
    · rcases bind_eq_error_iff.mp threading with extraction | ⟨program, extracted, threading⟩
      · exact .inr (.inl extraction)
      · exact .inr (.inr ⟨names, program, named, extracted,
          Block.eq_error_of_bind threading fun _ => ⟨_, rfl⟩⟩)
  · rw [compile, if_neg threads] at failed
    cases failed

/-- What an error says about the normalized text. -/
theorem place_of_compile_eq_error
    {config : Config}
    {text : Text}
    {error : CompileError}
    (failed : compile config text = .error error) :
    (∃ (token : Variable) (before : Text),
      error = .reservedVariable token.text (1 + before.breaks) ∧
        token.StandsBehind before (config.mode.normalize text)) ∨
    (∃ (keyword : Keyword) (before after : Text),
      error = .unclosedBlock ⟨keyword, 1 + before.breaks⟩ ∧
        config.mode.normalize text = before ++ keyword.opener ++ after) ∨
    ∃ name line, error = .undefinedTemplate name line := by
  obtain ⟨_, naming | extraction | ⟨_, _, _, _, threading⟩⟩ := error_cases_of_compile failed
  · exact .inl (NameSupply.exists_of_ofSource_eq_error naming)
  · exact .inr (.inl (Program.exists_of_ofText_eq_error extraction))
  · exact .inr (.inr (Program.exists_of_thread_eq_error threading))

end OutputThreading
