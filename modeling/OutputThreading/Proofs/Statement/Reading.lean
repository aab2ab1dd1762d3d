import OutputThreading.Proofs.Form
import OutputThreading.Proofs.Text.Occurrence
import OutputThreading.Statement

/-!
# Reading a statement back

A statement whose interior cannot be mistaken for the end of a statement is read back from its text,
whatever follows (`Statement.read?_text_append`).  A generated interior may still end in a closing
brace; then the statement is read without that brace, which stays behind
(`Statement.split_text_append`).  What follows a statement has no say in it
(`Statement.split_append_closing`).
-/

namespace OutputThreading
namespace Statement

/-! ## Words behind the opening braces -/

theorem text_eq (statement : Statement) :
    statement.text = '{' :: '{' :: (statement.interior ++ ['}', '}']) := rfl

theorem text_eq_concat (statement : Statement) :
    statement.text = '{' :: '{' :: (statement.interior ++ ['}']) ++ ['}'] := by
  simp [text_eq]

theorem text_append (statement : Statement) (rest : Text) :
    statement.text ++ rest = '{' :: '{' :: (statement.interior ++ '}' :: '}' :: rest) := by
  simp [text_eq]

theorem after?_append_closing
    {word : Text}
    (noBrace : '}' ∉ word)
    (interior rest : Text) :
    (interior ++ '}' :: '}' :: rest).after? word =
      (interior.after? word).map fun behind => behind ++ '}' :: '}' :: rest := by
  induction word generalizing interior with
  | nil => simp
  | cons w word inductionHypothesis =>
      simp only [List.mem_cons, not_or] at noBrace
      cases interior with
      | nil => exact Text.after?_cons_of_ne noBrace.1 _ _
      | cons c interior =>
          by_cases same : c = w
          · subst same
            simpa using inductionHypothesis noBrace.2 interior
          · rw [List.cons_append, Text.after?_cons_of_ne same, Text.after?_cons_of_ne same]
            rfl

/-- Whether a statement starts with a word can be read off its interior. -/
theorem after?_text_append
    {word : Text}
    (noBrace : '}' ∉ word)
    (statement : Statement)
    (rest : Text) :
    (statement.text ++ rest).after? (opening ++ word) =
      (statement.interior.after? word).map fun behind => behind ++ '}' :: '}' :: rest := by
  rw [text_append, opening, List.cons_append, List.cons_append, List.nil_append,
    Text.after?_cons_self, Text.after?_cons_self, after?_append_closing noBrace]

theorem read?_cons_of_ne {c : Char} (different : c ≠ '{') (rest : Text) :
    read? (c :: rest) = none := by
  simp [read?, opening, Text.after?_cons_of_ne different]

/-! ## Where a statement ends -/

theorem closing_ne_nil : closing ≠ [] := List.cons_ne_nil _ _

/-- No closing braces stand in the interior or overlap with those of the statement. -/
def ClosesOnce (statement : Statement) : Prop :=
  ¬closing <:+: statement.interior ++ ['}']

theorem ClosesOnce.breakOn?_append
    {statement : Statement}
    (closes : statement.ClosesOnce)
    {part : Text}
    (suffix : part <:+ statement.interior)
    (rest : Text) :
    (part ++ '}' :: '}' :: rest).breakOn? closing = some (part, rest) := by
  have absent : ¬closing <:+: part ++ closing.dropLast := by
    intro inside
    obtain ⟨front, parts⟩ := suffix
    refine closes (inside.trans ⟨front, [], ?_⟩)
    simp [← parts, closing]
  have broken := Text.breakOn?_append closing_ne_nil absent rest
  simpa [closing] using broken

theorem read?_text_append
    {statement : Statement}
    (closes : statement.ClosesOnce)
    (rest : Text) :
    read? (statement.text ++ rest) =
      if '\n' ∈ statement.interior then none else some (statement, rest) := by
  have opened : (statement.text ++ rest).after? opening =
      some (statement.interior ++ '}' :: '}' :: rest) := by
    rw [text_append]
    simp [opening]
  simp only [read?, opened, Option.bind_eq_bind, Option.bind_some,
    closes.breakOn?_append List.suffix_rfl]

theorem closesOnce_of_read?
    {text rest : Text}
    {statement : Statement}
    (found : read? text = some (statement, rest)) :
    statement.ClosesOnce := by
  simp only [read?, Option.bind_eq_bind, Option.bind_eq_some_iff] at found
  obtain ⟨inside, _, ⟨interior, after⟩, closed, found⟩ := found
  simp only [Option.ite_none_left_eq_some, Option.some.injEq, Prod.mk.injEq] at found
  obtain ⟨_, rfl, rfl⟩ := found
  exact Text.not_infix_of_breakOn? closing_ne_nil closed

/-- A statement is read where its text stands, if that ends where it is closed first and goes over
no line break. -/
theorem read?_eq_some_iff {text rest : Text} {statement : Statement} :
    read? text = some (statement, rest) ↔
      text = statement.text ++ rest ∧ statement.ClosesOnce ∧ '\n' ∉ statement.interior := by
  constructor
  · intro found
    exact ⟨eq_text_append_of_read? found, closesOnce_of_read? found,
      newline_notMem_interior_of_read? found⟩
  · rintro ⟨rfl, closes, inline⟩
    rw [read?_text_append closes, if_neg inline]

theorem newline_notMem_text {statement : Statement} (inline : '\n' ∉ statement.interior) :
    '\n' ∉ statement.text := by
  simp [text_eq, inline]

theorem closesOnce_of_notMem {statement : Statement} (noBrace : '}' ∉ statement.interior) :
    statement.ClosesOnce := by
  intro inside
  have counted := inside.sublist.count_le '}'
  rw [List.count_append, List.count_eq_zero.mpr noBrace] at counted
  exact absurd counted (by decide)

/-! ## What is read of a generated statement -/

/-- No closing braces stand in the interior, which may however end in a closing brace. -/
def HoldsNoClosing (statement : Statement) : Prop :=
  ¬closing <:+: statement.interior

/-- The statement that is read at the start of the text of a statement: a closing brace at the end
of the interior is taken for the first of the closing braces. -/
def asRead (statement : Statement) : Statement :=
  if statement.interior.getLast? = some '}' then ⟨statement.interior.dropLast⟩ else statement

/-- The closing brace that is left over when a statement is read. -/
def leftOver (statement : Statement) : Text :=
  if statement.interior.getLast? = some '}' then ['}'] else []

theorem asRead_of_interior_eq_concat
    {statement : Statement}
    {front : Text}
    {last : Char}
    (equal : statement.interior = front ++ [last]) :
    statement.asRead = if last = '}' then ⟨front⟩ else statement := by
  simp [asRead, equal]

theorem text_asRead_append_leftOver (statement : Statement) :
    statement.asRead.text ++ statement.leftOver = statement.text := by
  rw [asRead, leftOver]
  split
  next last =>
    obtain ⟨front, equal⟩ := List.getLast?_eq_some_iff.mp last
    simp [text_eq, equal]
  next => simp

theorem closesOnce_asRead {statement : Statement} (holds : statement.HoldsNoClosing) :
    statement.asRead.ClosesOnce := by
  rw [asRead]
  split
  next last =>
    obtain ⟨front, equal⟩ := List.getLast?_eq_some_iff.mp last
    have whole : statement.interior.dropLast ++ ['}'] = statement.interior := by simp [equal]
    rw [ClosesOnce, whole]
    exact holds
  next notLast =>
    intro inside
    rcases List.eq_nil_or_concat statement.interior with empty | ⟨front, last, equal⟩
    · rw [empty] at inside
      exact absurd inside (by decide)
    · rw [List.concat_eq_append] at equal
      have different : last ≠ '}' := by
        rintro rfl
        exact notLast (by simp [equal])
      have foreign : last ∉ closing := by simpa [closing] using different
      rw [equal, List.append_assoc, List.singleton_append, Text.infix_append_cons_iff foreign]
        at inside
      rcases inside with inside | inside
      · exact holds (equal ▸ List.infix_append_of_infix_left inside)
      · exact absurd inside (by decide)

theorem ClosesOnce.holdsNoClosing {statement : Statement} (closes : statement.ClosesOnce) :
    statement.HoldsNoClosing :=
  fun inside => closes (List.infix_append_of_infix_left inside)

theorem ClosesOnce.getLast?_ne {statement : Statement} (closes : statement.ClosesOnce) :
    statement.interior.getLast? ≠ some '}' := by
  intro last
  obtain ⟨front, equal⟩ := List.getLast?_eq_some_iff.mp last
  exact closes ⟨front, [], by simp [equal, closing]⟩

@[simp] theorem ClosesOnce.asRead_eq {statement : Statement} (closes : statement.ClosesOnce) :
    statement.asRead = statement := by
  rw [asRead, if_neg closes.getLast?_ne]

theorem mem_interior_of_mem_asRead
    {statement : Statement}
    {c : Char}
    (member : c ∈ statement.asRead.interior) :
    c ∈ statement.interior := by
  rw [asRead] at member
  split at member
  · exact List.dropLast_subset _ member
  · exact member

/-- A generated statement on one line is read up to its closing braces. -/
theorem split_text_append
    {statement : Statement}
    (holds : statement.HoldsNoClosing)
    (inline : '\n' ∉ statement.interior)
    (rest : Text) :
    form.split (statement.text ++ rest) =
      .phrase statement.asRead :: (statement.leftOver.map .char ++ form.split rest) := by
  have inlineRead : '\n' ∉ statement.asRead.interior :=
    fun member => inline (mem_interior_of_mem_asRead member)
  have found : read? (statement.text ++ rest) =
      some (statement.asRead, statement.leftOver ++ rest) := by
    rw [← text_asRead_append_leftOver, List.append_assoc,
      read?_text_append (closesOnce_asRead holds), if_neg inlineRead]
  have skips : form.Skips statement.leftOver rest := by
    refine Form.Skips.of_forall_mem (fun c member text => ?_) rest
    have brace : c = '}' := by
      rw [leftOver] at member
      split at member <;> simp_all
    subst brace
    exact read?_cons_of_ne (by decide) text
  rw [form.split_of_read? found, form.split_append_of_skips skips]

/-! ## Text behind a statement -/

/-- What follows has no say in the statements in front of it, if they end there. -/
theorem read?_append
    {front rest : Text}
    (inFront : ∀ statement : Statement, statement.ClosesOnce → '\n' ∉ statement.interior →
      statement.text <+: front ++ rest → statement.text <+: front) :
    read? (front ++ rest) =
      (read? front).map fun (statement, behind) => (statement, behind ++ rest) := by
  cases found : read? front with
  | none =>
      rw [Option.map_none, Option.eq_none_iff_forall_ne_some]
      rintro ⟨statement, behind⟩ otherFound
      obtain ⟨same, closes, inline⟩ := read?_eq_some_iff.mp otherFound
      obtain ⟨between, rfl⟩ := inFront statement closes inline ⟨behind, same.symm⟩
      rw [read?_eq_some_iff.mpr ⟨rfl, closes, inline⟩] at found
      cases found
  | some result =>
      obtain ⟨statement, behind⟩ := result
      obtain ⟨rfl, closes, inline⟩ := read?_eq_some_iff.mp found
      rw [List.append_assoc]
      exact read?_eq_some_iff.mpr ⟨rfl, closes, inline⟩

/-- A statement that starts in front of closing braces ends there at the latest. -/
theorem ClosesOnce.prefix_append_closing
    {statement : Statement}
    (closes : statement.ClosesOnce)
    {front rest : Text}
    (leading : statement.text <+: front ++ closing ++ rest) :
    statement.text <+: front ++ closing := by
  rcases List.prefix_or_prefix_of_prefix leading (List.prefix_append (front ++ closing) rest) with
    short | ⟨excess, text_eq⟩
  · exact short
  · rcases List.eq_nil_or_concat excess with rfl | ⟨between, last, rfl⟩
    · rw [← text_eq, List.append_nil]
    · -- closing braces would stand in front of the last of the statement
      have inside : closing <:+: '{' :: '{' :: (statement.interior ++ ['}']) := by
        refine ⟨front, between, ?_⟩
        have dropped := congrArg List.dropLast text_eq
        rw [List.concat_eq_append, ← List.append_assoc, List.dropLast_concat] at dropped
        rw [dropped, text_eq_concat, List.dropLast_concat]
      have apart : ∀ c ∈ opening, c ∉ closing := by simp [opening, closing]
      have whole : '{' :: '{' :: (statement.interior ++ ['}']) =
          [] ++ (opening ++ (statement.interior ++ ['}'])) := rfl
      rw [whole, Text.infix_append_append_iff closing_ne_nil apart (by decide)] at inside
      rcases inside with inside | inside
      · exact absurd (List.infix_nil.mp inside) closing_ne_nil
      · exact absurd inside closes

/-- Behind closing braces the text is searched like a text of its own. -/
theorem split_append_closing (front rest : Text) :
    form.split (front ++ closing ++ rest) = form.split (front ++ closing) ++ form.split rest := by
  refine form.split_append fun part suffix nonempty => ?_
  rcases List.suffix_or_suffix_of_suffix suffix (List.suffix_append front closing) with
    within | ⟨inFront, rfl⟩
  · -- no statement starts at a closing brace
    obtain ⟨c, tail, rfl⟩ := List.exists_cons_of_ne_nil nonempty
    have brace : c ≠ '{' := by
      rintro rfl
      exact absurd (within.subset List.mem_cons_self) (by decide)
    show read? _ = (read? _).map _
    rw [List.cons_append, read?_cons_of_ne brace, read?_cons_of_ne brace]
    rfl
  · exact read?_append fun statement closes _ => closes.prefix_append_closing

/-- A statement ends in a closing brace, so none goes on where there is no more of them. -/
theorem split_append_of_notMem
    {rest : Text}
    (noBrace : '}' ∉ rest)
    (front : Text) :
    form.split (front ++ rest) = form.split front ++ form.split rest :=
  form.split_append fun _ _ _ => read?_append fun statement _ _ =>
    Text.prefix_of_prefix_append (List.getLast?_eq_some_iff.mpr ⟨_, statement.text_eq_concat⟩)
      noBrace

end Statement
end OutputThreading
