import OutputThreading.Proofs.Call.Statements
import OutputThreading.Proofs.Statement.Kinds

/-!
# Returns on their way through threading

Threading the calls of a statement neither makes nor removes a return, and a return has a value
afterwards exactly if it had one before (`ThreadingContext.map_isValued_return?_withValues`).  Handing
back the output then turns every return of a delimited text into one that hands back the accumulator,
paired with the value if there is one.
-/

namespace OutputThreading
namespace Statement

/-! ## Returns by their interior -/

theorem return?_eq_none
    {statement : Statement}
    (other : ¬"return".toList <+: statement.interior) :
    statement.return? = none := by
  unfold return?
  rw [Text.after?_eq_none_iff.mpr other]
  rfl

theorem return?_eq_none_of_head?
    {statement : Statement}
    (other : statement.interior.head? ≠ some 'r') :
    statement.return? = none := by
  apply return?_eq_none
  rintro ⟨rest, equal⟩
  apply other
  rw [← equal]
  rfl

/-- A statement that starts with a variable is no return. -/
theorem return?_eq_none_of_dollar
    {statement : Statement}
    {rest : Text}
    (interior : statement.interior = '$' :: rest) :
    statement.return? = none := by
  apply return?_eq_none_of_head?
  rw [interior, List.head?_cons]
  decide

/-- A return is its word and an expression between white space. -/
theorem interior_of_return?
    {statement : Statement}
    {found : Return}
    (isReturn : statement.return? = some found) :
    statement.interior =
        "return".toList ++ found.spacing ++ found.expression ++ found.trailing ∧
      '\n' ∉ found.expression := by
  simp only [return?, Option.bind_eq_bind, Option.bind_eq_some_iff] at isReturn
  obtain ⟨behind, word, isReturn⟩ := isReturn
  simp only [Option.ite_none_left_eq_some, Option.some.injEq, not_or] at isReturn
  obtain ⟨⟨_, inline⟩, rfl⟩ := isReturn
  refine ⟨?_, inline⟩
  rw [Text.eq_append_of_after? word, List.append_assoc, Text.trimEnd_append_trailingSpace,
    List.append_assoc, Text.leadingSpace_append_trimStart]

/-- A space and an expression behind the word make a return of that expression. -/
theorem return?_mk
    {expression front rest : Text}
    {first last : Char}
    (starts : expression = first :: rest)
    (ends : expression = front ++ [last])
    (solidFirst : Character.isSpace first = false)
    (solidLast : Character.isSpace last = false)
    (inline : '\n' ∉ expression) :
    (Statement.mk ("return ".toList ++ expression)).return? = some ⟨[' '], expression, []⟩ := by
  have after : Text.after? ("return ".toList ++ expression) "return".toList =
      some ([' '] ++ expression) :=
    Text.after?_append "return".toList ([' '] ++ expression)
  have blank : ∀ c ∈ [' '], Character.isSpace c = true :=
    List.forall_mem_singleton.mpr (by decide)
  have leading : Text.leadingSpace ([' '] ++ expression) = [' '] := by
    rw [starts]
    exact Text.leadingSpace_append_solid blank solidFirst rest
  have trimmed : Text.trimStart ([' '] ++ expression) = expression := by
    rw [starts]
    exact Text.trimStart_append_solid blank solidFirst rest
  have whole : expression.trimEnd = expression := by
    rw [ends]
    exact Text.trimEnd_concat solidLast front
  have trailing : expression.trailingSpace = [] := by
    rw [ends]
    exact Text.trailingSpace_concat solidLast front
  unfold return?
  rw [after]
  simp only [Option.bind_eq_bind, Option.bind_some, leading, trimmed, whole, trailing]
  rw [if_neg]
  simp [inline]

end Statement

/-- Whether the statements that are returns have values. -/
def Statement.returnKinds (statements : List Statement) : List Bool :=
  statements.filterMap fun statement => statement.return?.map Return.isValued

theorem Statement.returnKinds_eq_map (statements : List Statement) :
    returnKinds statements = (statements.filterMap return?).map Return.isValued := by
  unfold returnKinds
  rw [List.map_filterMap]

/-! ## Threading keeps returns -/

namespace ThreadingContext

variable {context : ThreadingContext}

/-- Something solid behind the word of a return makes it a return with a value, if there is white
space in between. -/
theorem map_isValued_return?_append_cons
    {statement : Statement}
    {front other : Text}
    {c : Char}
    (interior : statement.interior = "return".toList ++ (front ++ c :: other))
    (solid : Character.isSpace c = false)
    (inline : '\n' ∉ statement.interior) :
    statement.return?.map Return.isValued =
      if front.leadingSpace = [] then none else some true := by
  have solidInside : c ∈ front.trimStart ++ c :: other := by simp
  have valued := Text.trimEnd_ne_nil_of_mem solid solidInside
  have inlineValue : '\n' ∉ (front.trimStart ++ c :: other).trimEnd := by
    intro newline
    apply inline
    rw [interior]
    apply List.mem_append_right
    rw [← Text.leadingSpace_append_trimStart (front ++ c :: other),
      Text.trimStart_append_cons solid]
    apply List.mem_append_right
    exact (Text.trimEnd_prefix _).subset newline
  unfold Statement.return?
  rw [interior, Text.after?_append]
  simp only [Option.bind_eq_bind, Option.bind_some, Text.leadingSpace_append_cons solid,
    Text.trimStart_append_cons solid]
  by_cases close : front.leadingSpace = []
  · simp [close]
  · simp [close, inlineValue, Return.isValued, valued]

/-- The word of a return does not reach into a call. -/
theorem not_return_prefix_append_opener
    {front : Text}
    (other : ¬"return".toList <+: front)
    (behind : Text) :
    ¬"return".toList <+: front ++ (Call.opener ++ behind) := by
  intro leading
  rcases List.prefix_or_prefix_of_prefix leading (List.prefix_append front _) with
    before | ⟨excess, parts⟩
  · exact other before
  · rw [← parts, List.prefix_append_right_inj, Call.opener_eq] at leading
    obtain ⟨more, equal⟩ := leading
    match excess, parts, equal with
    | [], parts, _ =>
        apply other
        rw [← parts, List.append_nil]
    | [d], parts, equal =>
        have last := congrArg List.getLast? parts
        rw [List.getLast?_concat, (List.cons.inj equal).1] at last
        exact absurd last (by decide)
    | d :: e :: excess, parts, equal =>
        have second : e = 'x' := (List.cons.inj (List.cons.inj equal).2).1
        have member : 'x' ∈ "return".toList := by
          rw [← parts, second]
          simp
        exact absurd member (by decide)

/-- Values in the place of calls make no return, remove none, and keep which ones have a value. -/
theorem map_isValued_return?_withValues
    {statement : Statement}
    (inline : '\n' ∉ statement.interior) :
    (context.withValues statement).return?.map Return.isValued =
      statement.return?.map Return.isValued := by
  have inlineValues : '\n' ∉ (context.withValues statement).interior :=
    newline_notMem_withValues inline
  rcases context.valuesFrom_eq_or_exists statement.interior [] with
    same | ⟨front, behind, c, other, text_eq, values_eq, first⟩
  · have unchanged : context.withValues statement = statement :=
      congrArg Statement.mk ((context.interior_withValues statement).trans same)
    rw [unchanged]
  · rw [← interior_withValues] at values_eq
    have solid : Character.isSpace c = false := by
      rcases first with rfl | rfl <;> decide
    have foreign : c ∉ "return".toList := by
      rcases first with rfl | rfl <;> decide
    by_cases isReturn : "return".toList <+: front
    · obtain ⟨inner, rfl⟩ := isReturn
      rw [List.append_assoc] at values_eq text_eq
      rw [Call.opener_eq] at text_eq
      rw [map_isValued_return?_append_cons values_eq solid inlineValues,
        map_isValued_return?_append_cons text_eq (by decide) inline]
    · have before : statement.return? = none := by
        apply Statement.return?_eq_none
        rw [text_eq]
        exact not_return_prefix_append_opener isReturn behind
      have after : (context.withValues statement).return? = none := by
        apply Statement.return?_eq_none
        rw [values_eq]
        exact fun leading => isReturn (Text.prefix_of_prefix_append_cons foreign leading)
      rw [before, after]

/-- A statement of which nothing is left is no return. -/
theorem return?_eq_none_of_isSpent
    (generated : context.names.IsGenerated)
    {statement : Statement}
    (spent : context.isSpent statement = true) :
    statement.return? = none := by
  apply Statement.return?_eq_none_of_head?
  intro first
  rcases head?_of_isSpent generated spent first with space | letter | dollar
  · exact absurd space (by decide)
  · exact absurd letter (by decide)
  · exact absurd dollar (by decide)

/-- Threading calls keeps the returns and which of them have values. -/
theorem ThreadsTo.returnKinds_eq
    (generated : context.names.IsGenerated)
    {pieces threaded : List (Piece Statement)}
    (threads : context.ThreadsTo pieces threaded)
    (delimited : Statement.Delimited pieces) :
    Statement.returnKinds (threaded.filterMap Piece.phrase?) =
      Statement.returnKinds (pieces.filterMap Piece.phrase?) := by
  refine threads.filterMap_eq fun statement member inline => ?_
  have closes := (delimited.isPlain_of_mem member).closesOnce
  refine filterMap_threadedStatements ?_ generated closes ?_ (map_isValued_return?_withValues inline)
  · intro made rest interior
    rw [Statement.return?_eq_none_of_dollar interior]
    rfl
  · intro spent
    rw [return?_eq_none_of_isSpent generated spent]
    rfl

end ThreadingContext

/-! ## Handing back the output -/

/-- A pair in front of its value. -/
def Accumulator.pairHead (accumulator : Text) : Text :=
  '(' :: ("cslice ".toList ++ accumulator ++ " (".toList)

theorem Accumulator.pair_eq (accumulator expression : Text) :
    Accumulator.pair accumulator expression =
      Accumulator.pairHead accumulator ++ (expression ++ [')', ')']) := by
  have word : "(cslice ".toList = '(' :: "cslice ".toList := by decide
  have ends : "))".toList = [')', ')'] := by decide
  show "(cslice ".toList ++ accumulator ++ " (".toList ++ expression ++ "))".toList = _
  rw [word, ends, Accumulator.pairHead, List.append_assoc, List.cons_append, List.cons_append]

theorem Accumulator.isFlat_pairHead {accumulator : Text} (isName : accumulator.IsName) :
    (Accumulator.pairHead accumulator).IsFlat := by
  have flat : Text.IsFlat ("(cslice ".toList ++ accumulator ++ " (".toList) := by
    rw [Text.isFlat_append_iff, Text.isFlat_append_iff]
    exact ⟨⟨by decide, isName.isFlat⟩, by decide⟩
  have word : "(cslice ".toList = '(' :: "cslice ".toList := by decide
  rwa [word] at flat

/-- What a return hands back in a template with an accumulator. -/
def Return.handedBack (accumulator : Text) (found : Return) : Text :=
  if found.isValued then Accumulator.pair accumulator found.expression else accumulator

/-- What handing back the output makes of a statement. -/
def Statement.returned (accumulator : Text) (statement : Statement) : Statement :=
  statement.return?.elim statement fun found => ⟨"return ".toList ++ found.handedBack accumulator⟩

/-- The output of a delimited text is handed back statement by statement. -/
theorem Text.returnOutput_join
    {pieces : List (Piece Statement)}
    (delimited : Statement.Delimited pieces)
    (accumulator : Text) :
    (Statement.form.join pieces).returnOutput accumulator =
      Statement.form.join (pieces.map (Piece.map (Statement.returned accumulator))) := by
  rw [returnOutput, Return.form_isKind.replace_join _ delimited, Form.join, List.flatMap_map]
  congr 1
  funext piece
  cases piece with
  | char c => rfl
  | phrase statement =>
      rw [Piece.text_phrase, Piece.map, Piece.text_phrase, Statement.returned]
      cases statement.return? <;> rfl

namespace Statement

theorem isPlain_returned
    {accumulator : Text}
    (isName : accumulator.IsName)
    {statement : Statement}
    (plain : statement.IsPlain) :
    (statement.returned accumulator).IsPlain := by
  rw [returned]
  cases found : statement.return? with
  | none => exact plain
  | some source =>
      have expression : source.expression <:+: statement.interior :=
        ⟨_, source.trailing, (interior_of_return? found).1.symm⟩
      rw [Option.elim_some, Return.handedBack]
      split
      · -- the parentheses behind the expression keep it apart from the closing braces
        have flat : Text.IsFlat ("return ".toList ++ Accumulator.pairHead accumulator) := by
          rw [Text.isFlat_append_iff]
          exact ⟨by decide, Accumulator.isFlat_pairHead isName⟩
        have ends : Text.IsFlat [')', ')'] := by decide
        rw [Accumulator.pair_eq, ← List.append_assoc]
        refine isPlain_append flat (by simp) ?_ ?_
        · intro inside
          have among : opening <:+: source.expression ++ ([')', ')'] ++ []) := inside
          rw [ends.infix_iff (by decide) (by decide)] at among
          rcases among with among | short
          · exact plain.opensOnce (List.infix_cons (among.trans expression))
          · exact absurd short (by decide)
        · intro inside
          rw [List.append_assoc, ends.infix_iff (by decide) (by decide)] at inside
          rcases inside with among | short
          · exact plain.closesOnce ((among.trans expression).trans (List.infix_append' [] _ _))
          · exact absurd short (by decide)
      · refine isPlain_of_isFlat ?_
        rw [Text.isFlat_append_iff]
        exact ⟨by decide, isName.isFlat⟩

/-- A statement that hands back the output is a return of what it hands back. -/
theorem return?_returned
    {accumulator : Text}
    (isName : accumulator.IsName)
    (nonempty : accumulator ≠ [])
    (statement : Statement) :
    (statement.returned accumulator).return? =
      statement.return?.map fun found => ⟨[' '], found.handedBack accumulator, []⟩ := by
  rw [returned]
  cases found : statement.return? with
  | none => exact found
  | some source =>
      have newline := isName.notMem (@Character.isNamePart_eq_false_of_isSpace '\n' rfl)
      rw [Option.elim_some, Option.map_some, Return.handedBack]
      split
      · have first : Accumulator.pair accumulator source.expression =
            '(' :: ("cslice ".toList ++ accumulator ++ " (".toList ++
              (source.expression ++ [')', ')'])) :=
          Accumulator.pair_eq accumulator source.expression
        have last : Accumulator.pair accumulator source.expression =
            Accumulator.pairHead accumulator ++ (source.expression ++ [')']) ++ [')'] := by
          rw [Accumulator.pair_eq, List.append_assoc, List.append_assoc]
          rfl
        refine return?_mk first last (by decide) (by decide) ?_
        rw [Accumulator.pair_eq, List.mem_append, List.mem_append, not_or, not_or]
        exact ⟨(Accumulator.isFlat_pairHead isName).notMem (by decide),
          (interior_of_return? found).2, by decide⟩
      · obtain ⟨c, rest, first⟩ := List.exists_cons_of_ne_nil nonempty
        have last := (List.dropLast_append_getLast nonempty).symm
        have solid {e : Char} (member : e ∈ accumulator) : Character.isSpace e = false :=
          Character.isSpace_eq_false_of_isNamePart (isName e member)
        exact return?_mk first last (solid (by simp [first])) (solid (List.getLast_mem nonempty))
          newline

end Statement
end OutputThreading
