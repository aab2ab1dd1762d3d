import OutputThreading.Proofs.Call.Conservation
import OutputThreading.Proofs.Statement.Kinds
import OutputThreading.Proofs.Variable

/-!
# Threading a delimited text

Threading takes the statements of a delimited text one by one: a statement on one line becomes the
statements made of it, laid out with the indentation of its line, and everything else stays
(`ThreadingContext.ThreadsTo`).  The result is delimited again.
-/

namespace OutputThreading
namespace ThreadingContext

/-- What threading makes of the pieces of a text. -/
inductive ThreadsTo (context : ThreadingContext) :
    List (Piece Statement) → List (Piece Statement) → Prop
  /-- There are no pieces. -/
  | nil : ThreadsTo context [] []
  /-- Text between statements is kept. -/
  | char
      (c : Char)
      {pieces threaded : List (Piece Statement)}
      (others : ThreadsTo context pieces threaded) :
      ThreadsTo context (.char c :: pieces) (.char c :: threaded)
  /-- A statement that goes over the end of a line is kept. -/
  | broken
      {statement : Statement}
      {pieces threaded : List (Piece Statement)}
      (newline : '\n' ∈ statement.interior)
      (others : ThreadsTo context pieces threaded) :
      ThreadsTo context (.phrase statement :: pieces) (.phrase statement :: threaded)
  /-- A statement on one line is threaded. -/
  | inline
      {statement : Statement}
      {pieces threaded : List (Piece Statement)}
      (newline : '\n' ∉ statement.interior)
      (line : Text)
      (others : ThreadsTo context pieces threaded) :
      ThreadsTo context (.phrase statement :: pieces)
        (Statement.laidOut ('\n' :: line.indentation) (context.threadedStatements statement) ++
          threaded)

variable {context : ThreadingContext}

/-! ## The result of threading -/

/-- Characters are passed over, whatever part of the line is then known. -/
theorem exists_replaceInLineFrom_map_char
    {α : Type}
    (form : Form α)
    (replacement : Text → α → Text)
    (text line : Text)
    (pieces : List (Piece α)) :
    ∃ line', form.replaceInLineFrom replacement line (text.map .char ++ pieces) =
      text ++ form.replaceInLineFrom replacement line' pieces := by
  induction text generalizing line with
  | nil => exact ⟨line, rfl⟩
  | cons c text inductionHypothesis =>
      obtain ⟨line', equal⟩ := inductionHypothesis (if c = '\n' then [] else c :: line)
      refine ⟨line', ?_⟩
      rw [List.map_cons, List.cons_append, Form.replaceInLineFrom, equal, List.cons_append]

theorem exists_threadsTo
    {pieces : List (Piece Statement)}
    (delimited : Statement.Delimited pieces)
    (line : Text) :
    ∃ threaded, context.ThreadsTo pieces threaded ∧
      Statement.form.replaceInLineFrom (fun line => context.threadStatement line.indentation) line
        (Statement.form.split (Statement.form.join pieces)) = Statement.form.join threaded := by
  rw [Statement.form_isKind.isBraced.split_join delimited]
  induction delimited generalizing line with
  | nil => exact ⟨[], .nil, rfl⟩
  | @char c pieces single others inductionHypothesis =>
      obtain ⟨threaded, threads, equal⟩ := inductionHypothesis (if c = '\n' then [] else c :: line)
      refine ⟨.char c :: threaded, threads.char c, ?_⟩
      rw [List.flatMap_cons, Piece.text_char, Statement.form_isKind.isBraced.split_singleton,
        List.singleton_append, Form.replaceInLineFrom, equal, Form.join_cons, Piece.text_char,
        List.singleton_append]
  | @phrase statement pieces plain others inductionHypothesis =>
      rw [List.flatMap_cons, Piece.text_phrase, Statement.form_isKind.split_text plain,
        Statement.inline?]
      by_cases newline : '\n' ∈ statement.interior
      · obtain ⟨line', passed⟩ := exists_replaceInLineFrom_map_char Statement.form
          (fun line => context.threadStatement line.indentation) statement.text line
          (pieces.flatMap fun piece => Statement.form.split (piece.text Statement.text))
        obtain ⟨threaded, threads, equal⟩ := inductionHypothesis line'
        refine ⟨.phrase statement :: threaded, threads.broken newline, ?_⟩
        rw [if_pos newline, Option.elim_none, passed, equal, Form.join_cons]
        rfl
      · obtain ⟨threaded, threads, equal⟩ := inductionHypothesis
          ((statement.text.reverse ++ line).takeWhile (· ≠ '\n'))
        refine ⟨_, threads.inline newline line.reverse, ?_⟩
        rw [if_neg newline, Option.elim_some, List.singleton_append, Form.replaceInLineFrom,
          Form.join_append, Statement.join_laidOut, ← threadStatement_eq_intercalate]
        exact congrArg _ equal

/-- The statements of the threaded pieces are those made of the statements of the pieces. -/
theorem ThreadsTo.filterMap_phrase?
    {pieces threaded : List (Piece Statement)}
    (threads : context.ThreadsTo pieces threaded) :
    threaded.filterMap Piece.phrase? =
      (pieces.filterMap Piece.phrase?).flatMap fun statement =>
        if '\n' ∈ statement.interior then [statement]
        else (context.threadedStatements statement).map Statement.asRead := by
  induction threads with
  | nil => rfl
  | char c others inductionHypothesis => simpa [List.filterMap_cons] using inductionHypothesis
  | broken newline others inductionHypothesis =>
      simp [List.flatMap_cons, newline, inductionHypothesis]
  | inline newline line others inductionHypothesis =>
      simp [List.flatMap_cons, newline, inductionHypothesis, Statement.filterMap_phrase?_laidOut]

/-! ## The result is delimited -/

theorem isPlain_asRead_of_mem_threadedStatements
    (isName : context.names.accumulator.IsName)
    {statement made : Statement}
    (plain : statement.IsPlain)
    (inline : '\n' ∉ statement.interior)
    (member : made ∈ context.threadedStatements statement) :
    made.asRead.IsPlain := by
  have readable := isReadable_of_mem_threadedStatements isName plain.closesOnce inline member
  refine ⟨Statement.OpensOnce.asRead ?_, Statement.closesOnce_asRead readable.holdsNoClosing⟩
  rw [threadedStatements] at member
  split at member
  · rw [List.mem_singleton.mp member]
    exact plain.opensOnce
  · rcases List.mem_append.mp member with member | member
    · intro inside
      have among : Statement.opening <:+: ['{'] ++ made.interior := inside
      rcases infix_of_infix_setupStatements (by decide) isName member among with short | before
      · exact absurd short (by decide)
      · exact plain.opensOnce (List.infix_cons before)
    · split at member
      · cases member
      · rw [List.mem_singleton.mp member]
        intro inside
        have among : Statement.opening <:+:
            ['{'] ++ ((context.withValues statement).interior ++ []) := by
          rwa [List.append_nil]
        have before := infix_of_infix_withValues (by decide) among
        rw [List.append_nil] at before
        exact plain.opensOnce before

/-- Threading a flat statement gives flat statements. -/
theorem isFlat_of_mem_threadedStatements
    (isName : context.names.accumulator.IsName)
    {statement made : Statement}
    (flat : statement.interior.IsFlat)
    (member : made ∈ context.threadedStatements statement) :
    made.interior.IsFlat := by
  rw [Text.isFlat_iff_forall_not_infix] at flat ⊢
  intro pattern delimiter inside
  apply flat pattern delimiter
  rw [threadedStatements_eq] at member
  rcases List.mem_append.mp member with member | member
  · have among : pattern <:+: [] ++ made.interior := inside
    have found := infix_of_infix_setupStatements delimiter isName member among
    rwa [List.infix_nil, or_iff_right delimiter.1] at found
  · split at member
    · cases member
    · rw [List.mem_singleton.mp member] at inside
      have among : pattern <:+: [] ++ ((context.withValues statement).interior ++ []) := by
        rwa [List.append_nil]
      have found := infix_of_infix_withValues delimiter among
      rwa [List.append_nil] at found

/-- The statements of the threaded pieces if all statements are flat. -/
theorem ThreadsTo.filterMap_phrase?_of_isFlat
    (isName : context.names.accumulator.IsName)
    {pieces threaded : List (Piece Statement)}
    (threads : context.ThreadsTo pieces threaded)
    (flat : ∀ statement ∈ pieces.filterMap Piece.phrase?, statement.interior.IsFlat) :
    threaded.filterMap Piece.phrase? =
        (pieces.filterMap Piece.phrase?).flatMap context.threadedStatements ∧
      ∀ made ∈ threaded.filterMap Piece.phrase?, made.interior.IsFlat := by
  have flatMade {statement : Statement} (member : statement ∈ pieces.filterMap Piece.phrase?)
      (made : Statement) (isMade : made ∈ context.threadedStatements statement) :
      made.interior.IsFlat :=
    isFlat_of_mem_threadedStatements isName (flat statement member) isMade
  have phrases : threaded.filterMap Piece.phrase? =
      (pieces.filterMap Piece.phrase?).flatMap context.threadedStatements := by
    rw [threads.filterMap_phrase?]
    refine List.flatMap_congr fun statement member => ?_
    rw [if_neg ((flat statement member).notMem (by decide)),
      Statement.map_asRead_of_isFlat (flatMade member)]
  refine ⟨phrases, fun made member => ?_⟩
  rw [phrases] at member
  obtain ⟨statement, isSource, isMade⟩ := List.mem_flatMap.mp member
  exact flatMade isSource made isMade

theorem delimited_laidOut_append
    {statements : List Statement}
    (plain : ∀ statement ∈ statements, statement.asRead.IsPlain)
    {spacing : Text}
    (noBrace : '{' ∉ spacing)
    {pieces : List (Piece Statement)}
    (delimited : Statement.Delimited pieces) :
    Statement.Delimited (Statement.laidOut spacing statements ++ pieces) := by
  have behind {statement : Statement} (first : statement.asRead.IsPlain)
      {others : List (Piece Statement)} (delimited : Statement.Delimited others) :
      Statement.Delimited (statement.pieces ++ others) := by
    refine .phrase first (delimited.append_chars ?_)
    rw [Statement.leftOver]
    split <;> decide
  induction statements with
  | nil => exact delimited
  | cons statement others inductionHypothesis =>
      have later := inductionHypothesis fun other member => plain other (List.mem_cons_of_mem _ member)
      cases others with
      | nil => exact behind (plain statement List.mem_cons_self) delimited
      | cons next others =>
          rw [Statement.laidOut, List.append_assoc, List.append_assoc]
          exact behind (plain statement List.mem_cons_self) (later.append_chars noBrace)

theorem exists_laidOut_eq_cons
    (spacing : Text)
    {statements : List Statement}
    (nonempty : statements ≠ []) :
    ∃ first others, Statement.laidOut spacing statements = .phrase first :: others := by
  match statements with
  | [] => exact absurd rfl nonempty
  | [statement] => exact ⟨_, _, rfl⟩
  | statement :: next :: others => exact ⟨_, _, rfl⟩

theorem head?_join_phrase (statement : Statement) (pieces : List (Piece Statement)) :
    (Statement.form.join (.phrase statement :: pieces)).head? = some '{' := rfl

/-- The threaded text starts with the same character. -/
theorem ThreadsTo.head?_join
    {pieces threaded : List (Piece Statement)}
    (threads : context.ThreadsTo pieces threaded) :
    (Statement.form.join threaded).head? = (Statement.form.join pieces).head? := by
  cases threads with
  | nil => rfl
  | char c others => rfl
  | broken newline others => rfl
  | inline newline line others =>
      obtain ⟨first, behind, equal⟩ := exists_laidOut_eq_cons ('\n' :: line.indentation)
        (context.threadedStatements_ne_nil _)
      rw [equal, List.cons_append, head?_join_phrase, head?_join_phrase]

/-- Threading a delimited text gives a delimited text. -/
theorem ThreadsTo.delimited
    (isName : context.names.accumulator.IsName)
    {pieces threaded : List (Piece Statement)}
    (threads : context.ThreadsTo pieces threaded)
    (delimited : Statement.Delimited pieces) :
    Statement.Delimited threaded := by
  induction threads with
  | nil => exact .nil
  | @char c pieces threaded others inductionHypothesis =>
      cases delimited with
      | char single delimited =>
          refine .char (fun brace => ?_) (inductionHypothesis delimited)
          rw [others.head?_join]
          exact single brace
  | broken newline others inductionHypothesis =>
      cases delimited with
      | phrase plain delimited => exact .phrase plain (inductionHypothesis delimited)
  | inline newline line others inductionHypothesis =>
      cases delimited with
      | phrase plain delimited =>
          refine delimited_laidOut_append (fun made member => ?_) (brace_notMem_indentation line)
            (inductionHypothesis delimited)
          exact isPlain_asRead_of_mem_threadedStatements isName plain newline member

theorem exists_threadKnownCalls_join
    (isName : context.names.accumulator.IsName)
    {pieces : List (Piece Statement)}
    (delimited : Statement.Delimited pieces) :
    ∃ threaded, context.ThreadsTo pieces threaded ∧ Statement.Delimited threaded ∧
      context.threadKnownCalls (Statement.form.join pieces) = Statement.form.join threaded := by
  obtain ⟨threaded, threads, equal⟩ := exists_threadsTo delimited []
  exact ⟨threaded, threads, threads.delimited isName delimited, equal⟩

/-! ## How the statements start -/

end ThreadingContext

theorem NameSupply.IsGenerated.exists_appending_eq_cons
    {names : NameSupply}
    (generated : names.IsGenerated)
    (expression : Text) :
    ∃ rest, (Accumulator.appending names.accumulator expression).interior = '$' :: rest := by
  obtain ⟨name, accumulator_eq, _⟩ := generated.exists_accumulator_eq_cons
  unfold Accumulator.appending
  rw [Accumulator.appendHead_append, accumulator_eq]
  exact ⟨_, rfl⟩

namespace ThreadingContext

variable {context : ThreadingContext}

/-- The statements in front of a statement start with a variable. -/
theorem exists_interior_eq_of_mem_setupStatements
    (generated : context.names.IsGenerated)
    {statement made : Statement}
    (member : made ∈ context.setupStatements statement) :
    ∃ rest, made.interior = '$' :: rest := by
  have ofCall (call : Call) (earlier : Nat) (own : made ∈ context.setupOf call earlier) :
      ∃ rest, made.interior = '$' :: rest := by
    rcases context.setupOf_cases call earlier with ⟨_, none⟩ | ⟨_, bare⟩ | ⟨_, valued⟩
    · rw [none] at own
      cases own
    · rw [bare, List.mem_singleton] at own
      rw [own]
      exact generated.exists_appending_eq_cons _
    · rw [valued, List.mem_cons, List.mem_singleton] at own
      rcases own with rfl | rfl
      · obtain ⟨word, temporary_eq⟩ :=
          context.names.exists_temporary_eq_cons call.callee earlier
        unfold binding
        rw [temporary_eq]
        exact ⟨_, rfl⟩
      · exact generated.exists_appending_eq_cons _
  unfold setupStatements at member
  generalize Call.form.split statement.interior = pieces at member
  generalize ([] : List Text) = earlier at member
  induction pieces generalizing earlier with
  | nil => cases member
  | cons piece pieces inductionHypothesis =>
      cases piece with
      | char c => exact inductionHypothesis earlier member
      | phrase call =>
          rcases List.mem_append.mp member with own | behind
          · exact ofCall call _ own
          · exact inductionHypothesis _ behind

end ThreadingContext

theorem Statement.exists_interior_asRead_eq
    {statement : Statement}
    {rest : Text}
    (interior : statement.interior = '$' :: rest) :
    ∃ other, statement.asRead.interior = '$' :: other := by
  unfold asRead
  split
  next last =>
    rw [interior] at last ⊢
    cases rest with
    | nil => exact absurd last (by decide)
    | cons c rest => exact ⟨_, rfl⟩
  next => exact ⟨rest, interior⟩

namespace ThreadingContext

variable {context : ThreadingContext}

/-- A statement of which nothing is left starts with white space, with a call or with the
accumulator. -/
theorem head?_of_isSpent
    (generated : context.names.IsGenerated)
    {statement : Statement}
    (spent : context.isSpent statement = true)
    {c : Char}
    (first : statement.interior.head? = some c) :
    Character.isSpace c = true ∨ c = 'e' ∨ c = '$' := by
  unfold isSpent at spent
  split at spent
  next occurrence only =>
    have whole := Call.form.before_append_write_append_after (only ▸ List.mem_singleton_self _ :
      occurrence ∈ Call.form.occurrences statement.interior)
    have word : ∃ tail, Call.form.write occurrence.phrase = 'e' :: tail := by
      change ∃ tail, occurrence.phrase.text = 'e' :: tail
      rw [← List.append_nil occurrence.phrase.text, Call.text_append, Call.opener_eq]
      exact ⟨_, rfl⟩
    obtain ⟨tail, word⟩ := word
    rw [word] at whole
    rw [← whole] at first
    cases before : occurrence.before with
    | nil =>
        rw [before] at first
        exact .inr (.inl (Option.some.inj first).symm)
    | cons d others =>
        rw [before] at first
        obtain rfl : d = c := Option.some.inj first
        rw [Bool.or_eq_true, Bool.and_eq_true] at spent
        rcases spent with alone | ⟨appended, _⟩
        · left
          unfold standsAlone at alone
          rw [Bool.and_eq_true] at alone
          exact List.all_eq_true.mp alone.1 d (by simp [before])
        · right; right
          unfold isAppended at appended
          rw [Bool.and_eq_true, decide_eq_true_eq, Accumulator.appendHead_append, before] at appended
          obtain ⟨name, accumulator_eq, _⟩ := generated.exists_accumulator_eq_cons
          rw [accumulator_eq] at appended
          exact (List.cons.inj appended.1).1
  next => cases spent

/-! ## Kinds that threading keeps -/

/-- Of the statements made of a statement only the last can be of a kind to which no statement with a
variable in front belongs. -/
theorem filterMap_threadedStatements
    {β : Type}
    {kind? : Statement → Option β}
    (other : ∀ (made : Statement) (rest : Text), made.interior = '$' :: rest → kind? made = none)
    (generated : context.names.IsGenerated)
    {statement : Statement}
    (closes : statement.ClosesOnce)
    (spent : context.isSpent statement = true → kind? statement = none)
    (kept : kind? (context.withValues statement) = kind? statement) :
    ((context.threadedStatements statement).map Statement.asRead).filterMap kind? =
      (kind? statement).toList := by
  have setup : ((context.setupStatements statement).map Statement.asRead).filterMap kind? = [] := by
    rw [List.filterMap_eq_nil_iff]
    intro made member
    obtain ⟨source, isMade, rfl⟩ := List.mem_map.mp member
    obtain ⟨rest, interior⟩ := exists_interior_eq_of_mem_setupStatements generated isMade
    obtain ⟨more, asRead⟩ := Statement.exists_interior_asRead_eq interior
    exact other source.asRead more asRead
  rw [threadedStatements_eq, List.map_append, List.filterMap_append, setup, List.nil_append]
  split
  next gone =>
    rw [spent gone.2]
    rfl
  next =>
    rw [List.map_singleton, (closesOnce_withValues closes).asRead_eq, ← kept]
    cases found : kind? (context.withValues statement) <;> simp [found]

/-- A kind that is kept in each statement is kept in the text. -/
theorem ThreadsTo.filterMap_eq
    {β : Type}
    {kind? : Statement → Option β}
    {pieces threaded : List (Piece Statement)}
    (threads : context.ThreadsTo pieces threaded)
    (kept : ∀ statement ∈ pieces.filterMap Piece.phrase?, '\n' ∉ statement.interior →
      ((context.threadedStatements statement).map Statement.asRead).filterMap kind? =
        (kind? statement).toList) :
    (threaded.filterMap Piece.phrase?).filterMap kind? =
      (pieces.filterMap Piece.phrase?).filterMap kind? := by
  rw [threads.filterMap_phrase?, List.filterMap_flatMap,
    List.filterMap_eq_flatMap_toList kind?]
  refine List.flatMap_congr fun statement member => ?_
  split
  next newline => cases found : kind? statement <;> simp [found]
  next newline => exact kept statement member newline

end ThreadingContext
end OutputThreading
