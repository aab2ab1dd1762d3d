import OutputThreading.Compile
import OutputThreading.Proofs.NameSupply.Capture

/-!
# Reserved and fresh names

Where no variable of the source contains the word output, no name has to be numbered: fresh naming
then generates the names that reserved naming does
(`NameSupply.exists_agrees_of_ofSource_reserved`).  Threading asks a supply for nothing but its
names, so compilations that differ in the naming alone give the same result.
-/

namespace OutputThreading
namespace NameSupply

/-! ## Supplies with the same names -/

/-- Two supplies generate the same names. -/
structure Agrees (names other : NameSupply) : Prop where
  /-- The accumulator has the same name. -/
  accumulator_eq : names.accumulator = other.accumulator
  /-- The result of every call has the same name. -/
  temporary_eq : ∀ callee earlier, names.temporary callee earlier = other.temporary callee earlier

theorem IsFirstFree.eq_base
    {taken : Text → Prop}
    {base name : Text}
    (first : IsFirstFree taken base name)
    (free : ¬taken base) :
    name = base := by
  rcases first with ⟨_, equal⟩ | ⟨occupied, _⟩
  · exact equal
  · exact absurd occupied free

/-- Where reserved names can be used, fresh ones are the same. -/
theorem exists_agrees_of_ofSource_reserved
    {text : Text}
    {names : NameSupply}
    (made : ofSource .reserved text = .ok names) :
    ∃ fresh, ofSource .fresh text = .ok fresh ∧ fresh.Agrees names := by
  have unused (name : Text) := @not_uses_of_ofSource_reserved text names made name
  obtain rfl := ofSource_reserved_eq_ok made
  have accumulator_eq : freeName text.variableNames Accumulator.defaultName =
      Accumulator.defaultName :=
    (isFirstFree_accumulator text).eq_base (unused _ (.inl (by decide)))
  refine ⟨_, rfl, accumulator_eq, fun callee earlier => ?_⟩
  refine (isFirstFree_temporary text _ callee earlier).eq_base ?_
  have word := word_infix_temporaryBase callee earlier
  rintro (same | used)
  · -- the accumulator has no capital letter
    have capital : 'O' ∈ temporaryBase callee earlier := word.subset (by decide)
    rw [same, accumulator_eq] at capital
    exact absurd capital (by decide)
  · exact unused _ (.inr word) used

/-! ## Threading with the same names -/

namespace Agrees

variable {names other : NameSupply} (agrees : names.Agrees other) (signatures : Signatures)
include agrees

theorem threadCall?_eq :
    ThreadingContext.threadCall? ⟨names, signatures⟩ =
      ThreadingContext.threadCall? ⟨other, signatures⟩ := by
  funext call earlier
  simp only [ThreadingContext.threadCall?, agrees.accumulator_eq, agrees.temporary_eq]

theorem isSpent_eq :
    ThreadingContext.isSpent ⟨names, signatures⟩ =
      ThreadingContext.isSpent ⟨other, signatures⟩ := by
  funext statement
  simp only [ThreadingContext.isSpent, ThreadingContext.isAppended, agrees.accumulator_eq]

theorem threadStatement_eq :
    ThreadingContext.threadStatement ⟨names, signatures⟩ =
      ThreadingContext.threadStatement ⟨other, signatures⟩ := by
  funext indentation statement
  simp only [ThreadingContext.threadStatement, ThreadingContext.setup, ThreadingContext.withValues,
    ThreadingContext.threadedPieces, agrees.threadCall?_eq, agrees.isSpent_eq]

theorem threadCalls_eq :
    ThreadingContext.threadCalls ⟨names, signatures⟩ =
      ThreadingContext.threadCalls ⟨other, signatures⟩ := by
  funext unknownCalls text
  -- which calls are errors depends on the signatures alone
  have errors : ThreadingContext.undefinedCall? ⟨names, signatures⟩ text =
      ThreadingContext.undefinedCall? ⟨other, signatures⟩ text := rfl
  simp only [ThreadingContext.threadCalls, ThreadingContext.threadKnownCalls, errors,
    agrees.threadStatement_eq]

theorem thread_template_eq (template : Template) (config : Config) :
    template.thread ⟨names, signatures⟩ config = template.thread ⟨other, signatures⟩ config := by
  simp only [Template.thread, agrees.accumulator_eq, agrees.threadCalls_eq]

theorem threadMain_eq (text : Text) (unknownCalls : UnknownCalls) :
    text.threadMain ⟨names, signatures⟩ unknownCalls =
      text.threadMain ⟨other, signatures⟩ unknownCalls := by
  simp only [Text.threadMain, agrees.accumulator_eq, agrees.threadCalls_eq]

omit signatures in
/-- Threading a program depends on the names that are generated, and not on how they are chosen. -/
theorem thread_program_eq (program : Program) (config : Config) :
    program.thread names config = program.thread other config := by
  simp only [Program.thread, Templates.thread, agrees.thread_template_eq, agrees.threadMain_eq]

end Agrees
end NameSupply

/-! ## Compilation -/

/-- Once the names are generated, threading does not look at the naming any more. -/
theorem Program.thread_naming
    (program : Program)
    (names : NameSupply)
    (config : Config)
    (naming : Naming) :
    program.thread names { config with naming } = program.thread names config :=
  rfl

/-- Compiling with fresh names gives the result of compiling with reserved ones, text or error,
where the source may be compiled with reserved names. -/
theorem compile_fresh_eq_compile_reserved
    (config : Config)
    (text : Text)
    {names : NameSupply}
    (made : NameSupply.ofSource .reserved (config.mode.normalize text) = .ok names) :
    compile { config with naming := .fresh } text =
      compile { config with naming := .reserved } text := by
  obtain ⟨fresh, freshMade, agrees⟩ := NameSupply.exists_agrees_of_ofSource_reserved made
  have threaded : Config.threadText { config with naming := .fresh } (config.mode.normalize text) =
      Config.threadText { config with naming := .reserved } (config.mode.normalize text) := by
    simp only [Config.threadText, freshMade, made, bind, Except.bind]
    simp only [Program.thread_naming, agrees.thread_program_eq]
  simp only [compile, threaded]

/-- A statement with two calls of a template that prints and returns a value, in a source that uses
variables of its own. -/
theorem compile_fresh_eq_compile_reserved_twoCalls :
    let source : Text :=
      "define \"f\"\nprint $x\nreturn $y\nend\n".toList ++
        "$z := add (execTemplate \"f\") (execTemplate \"f\")".toList
    NameSupply.ofSource .reserved (Mode.normalize .product source) =
        .ok ⟨.reserved, Accumulator.defaultName, []⟩ ∧
      compile { mode := .product, naming := .fresh } source =
        compile { mode := .product, naming := .reserved } source := by
  intro source
  have made : NameSupply.ofSource .reserved (Mode.normalize .product source) =
      .ok ⟨.reserved, Accumulator.defaultName, []⟩ := by
    decide +kernel
  exact ⟨made, compile_fresh_eq_compile_reserved { mode := .product } source made⟩

end OutputThreading
