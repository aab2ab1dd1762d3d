import Mathlib.Data.List.Forall2
import OutputThreading.Program.Extraction
import OutputThreading.Proofs.Block
import OutputThreading.Proofs.Statement.Kinds

/-!
# Extraction, statement by statement

In a text whose statements do not nest, a definition starts with one of the statements and ends with
another, so extraction can be followed on the list of statements alone
(`Program.presents_of_takeDefinitions`).  Statements that neither print nor return, call no
template and shape no block can be left out before extraction or after it
(`Statement.extract?_live`).
-/

namespace OutputThreading

theorem Statement.phrases_join_of_isFlatPiece
    {pieces : List (Piece Statement)}
    (flat : ∀ piece ∈ pieces, IsFlatPiece piece) :
    form.phrases (form.join pieces) = pieces.filterMap Piece.phrase? := by
  rw [form_isKind.phrases_join (delimited_of_isFlatPiece flat)]
  exact filterMap_inline?_of_isFlat fun statement member =>
    flat _ (Form.mem_filterMap_phrase?.mp member)

/-! ## The head of a definition -/

namespace Statement

/-- The name of the template whose definition starts with the statement. -/
def definedName? (statement : Statement) : Option Text :=
  if statement.marker? = some (.opens .define) then
    Program.headName? (statement.text.drop (Marker.opens .define).text.length)
  else none

/-- If the statement is the head of a definition, a quote that it opens is closed in it. -/
def ClosesQuote (statement : Statement) : Prop :=
  statement.marker? = some (.opens .define) → statement.interior.count '"' ≠ 1

instance (statement : Statement) : Decidable statement.ClosesQuote :=
  inferInstanceAs (Decidable (_ → _))

theorem exists_interior_eq_of_marker?
    {statement : Statement}
    {keyword : Keyword}
    (opens : statement.marker? = some (.opens keyword)) :
    ∃ rest, statement.interior = keyword.name ++ rest := by
  unfold marker? at opens
  rw [Option.or_eq_some_iff] at opens
  rcases opens with found | ⟨_, isEnd⟩
  · obtain ⟨other, isFound, equal⟩ := Option.map_eq_some_iff.mp found
    obtain rfl := Marker.opens.inj equal
    have leads := List.find?_some isFound
    unfold Keyword.leads at leads
    cases after : statement.interior.after? other.name with
    | none => simp [after] at leads
    | some rest => exact ⟨rest, Text.eq_append_of_after? after⟩
  · split at isEnd
    · cases Option.some.inj isEnd
    · cases isEnd

end Statement

/-- What follows the head of a definition has no say in its name if its quotes are closed. -/
theorem Program.exists_headName?_append_eq
    {text : Text}
    (noBrace : '}' ∉ text)
    (quotes : text.count '"' ≠ 1) :
    ∃ name?, ∀ rest, headName? (text ++ '}' :: '}' :: rest) = name? := by
  have brace : Character.isSpace '}' = false := by decide
  have parts := text.leadingSpace_append_trimStart
  unfold headName?
  simp only [Text.trimStart_append_cons brace, Text.leadingSpace_append_cons brace]
  cases trimmed : text.trimStart with
  | nil => exact ⟨none, fun rest => rfl⟩
  | cons c inside =>
      by_cases quote : c = '"'
      · subst quote
        -- the quote is closed in front of the braces
        have again : '"' ∈ inside := by
          rw [← List.count_pos_iff]
          rw [← parts, trimmed, List.count_append, List.count_cons_self] at quotes
          have blank : List.count '"' text.leadingSpace = 0 := by
            rw [List.count_eq_zero]
            intro member
            exact absurd (Text.isSpace_of_mem_leadingSpace member) (by decide)
          omega
        obtain ⟨name, behind, inside_eq, absent⟩ := List.eq_append_cons_of_mem again
        have broken (more : Text) : Text.breakOn? (inside ++ more) ['"'] =
            some (name, behind ++ more) :=
          Text.breakOn?_singleton_eq_some_iff.mpr ⟨by rw [inside_eq]; simp, absent⟩
        have noBraceBehind : '}' ∉ behind := by
          intro member
          apply noBrace
          rw [← parts, trimmed, inside_eq]
          simp [member]
        simp only [List.cons_append, Text.after?_cons_self, Text.after?_nil, Option.bind_eq_bind,
          Option.bind_some, broken, Text.trimStart_append_cons brace]
        cases behindTrimmed : Text.trimStart behind with
        | nil => exact ⟨_, fun rest => by rw [List.nil_append, Statement.closing,
            Text.after?_cons_self, Text.after?_cons_self, Text.after?_nil]; rfl⟩
        | cons d others =>
            have other : d ≠ '}' := by
              rintro rfl
              apply noBraceBehind
              exact (Text.trimStart_suffix behind).subset (by simp [behindTrimmed])
            exact ⟨none, fun rest => by
              rw [List.cons_append, Statement.closing, Text.after?_cons_of_ne other]; rfl⟩
      · exact ⟨none, fun rest => by rw [List.cons_append, Text.after?_cons_of_ne quote]; rfl⟩

namespace Statement

theorem headName?_eq_definedName?
    {statement : Statement}
    (flat : statement.interior.IsFlat)
    (closes : statement.ClosesQuote)
    (opens : statement.marker? = some (.opens .define))
    (rest : Text) :
    Program.headName? (statement.text.drop (Marker.opens .define).text.length ++ rest) =
      statement.definedName? := by
  obtain ⟨more, interior⟩ := exists_interior_eq_of_marker? opens
  have dropped : statement.text.drop (Marker.opens .define).text.length = more ++ closing := by
    have whole : statement.text = (Marker.opens .define).text ++ (more ++ closing) := by
      rw [text, interior]
      simp [Marker.text, Keyword.opener]
    rw [whole, List.drop_left]
  have noBrace : '}' ∉ more := by
    intro member
    apply flat.notMem (by decide : Character.delimits '}' = true)
    rw [interior]
    exact List.mem_append_right _ member
  have quotes : more.count '"' ≠ 1 := by
    have count := closes opens
    rwa [interior, List.count_append, show List.count '"' (Keyword.define.name) = 0 from by decide,
      Nat.zero_add] at count
  obtain ⟨name?, named⟩ := Program.exists_headName?_append_eq noBrace quotes
  rw [definedName?, if_pos opens, dropped, List.append_assoc]
  exact (named rest).trans (named []).symm

/-! ## Extraction on statements -/

/-- How many blocks are open inside of a block behind the statement, when there were `depth` in front
of it; none if the statement closes the block itself. -/
def depthAfter? (depth : Nat) (statement : Statement) : Option Nat :=
  match statement.marker?, depth with
  | some .closes, 0 => none
  | some .closes, depth + 1 => some depth
  | some (.opens _), depth => some (depth + 1)
  | none, depth => some depth

/-- The statements up to the one that closes a block, and those behind it, when `depth` blocks are
open inside of the block. -/
def takeBlock? (depth : Nat) : List Statement → Option (List Statement × List Statement)
  | [] => none
  | statement :: statements =>
      match statement.depthAfter? depth with
      | none => some ([statement], statements)
      | some next =>
          (takeBlock? next statements).map fun (inside, behind) => (statement :: inside, behind)

theorem takeBlock?_cons_of_eq_none
    {depth : Nat}
    {statement : Statement}
    (closes : statement.depthAfter? depth = none)
    (statements : List Statement) :
    takeBlock? depth (statement :: statements) = some ([statement], statements) := by
  rw [takeBlock?, closes]

theorem takeBlock?_cons_of_eq_some
    {depth next : Nat}
    {statement : Statement}
    (continues : statement.depthAfter? depth = some next)
    (statements : List Statement) :
    takeBlock? depth (statement :: statements) =
      (takeBlock? next statements).map fun (inside, behind) => (statement :: inside, behind) := by
  rw [takeBlock?, continues]

theorem append_eq_of_takeBlock?
    {depth : Nat}
    {statements inside behind : List Statement}
    (taken : takeBlock? depth statements = some (inside, behind)) :
    inside ++ behind = statements := by
  induction statements generalizing depth inside with
  | nil => cases taken
  | cons statement statements inductionHypothesis =>
      cases after : statement.depthAfter? depth with
      | none =>
          rw [takeBlock?_cons_of_eq_none after] at taken
          obtain ⟨rfl, rfl⟩ := Prod.mk.inj (Option.some.inj taken)
          rfl
      | some next =>
          rw [takeBlock?_cons_of_eq_some after] at taken
          obtain ⟨⟨part, rest⟩, found, equal⟩ := Option.map_eq_some_iff.mp taken
          obtain ⟨rfl, rfl⟩ := Prod.mk.inj equal
          rw [List.cons_append, inductionHypothesis found]

/-- The definitions among the statements, each with its name and its statements, and the statements
outside of them. -/
def extract? (statements : List Statement) :
    Option (List (Text × List Statement) × List Statement) :=
  match statements with
  | [] => some ([], [])
  | statement :: statements =>
      match statement.definedName? with
      | none => (extract? statements).map fun (entries, main) => (entries, statement :: main)
      | some name =>
          match _taken : takeBlock? 0 statements with
          | none => none
          | some (inside, behind) =>
              (extract? behind).map fun (entries, main) =>
                ((name, statement :: inside) :: entries, main)
termination_by statements.length
decreasing_by
  · simp
  · have parts := congrArg List.length (append_eq_of_takeBlock? _taken)
    rw [List.length_append] at parts
    simp only [List.length_cons]
    omega

theorem extract?_cons_of_eq_none
    {statement : Statement}
    (unnamed : statement.definedName? = none)
    (statements : List Statement) :
    extract? (statement :: statements) =
      (extract? statements).map fun (entries, main) => (entries, statement :: main) := by
  rw [extract?, unnamed]

theorem extract?_cons_of_eq_some
    {statement : Statement}
    {name : Text}
    (named : statement.definedName? = some name)
    {statements inside behind : List Statement}
    (taken : takeBlock? 0 statements = some (inside, behind)) :
    extract? (statement :: statements) =
      (extract? behind).map fun (entries, main) =>
        ((name, statement :: inside) :: entries, main) := by
  rw [extract?, named]
  simp only
  split
  next none =>
    rw [taken] at none
    cases none
  next found =>
    rw [taken] at found
    obtain ⟨rfl, rfl⟩ := Prod.mk.inj (Option.some.inj found)
    rfl

/-! ## Statements without a part in the output -/

/-- The statement neither prints nor returns, shapes no block and calls no template. -/
def IsIdle (statement : Statement) : Prop :=
  statement.print? = none ∧ statement.return? = none ∧ statement.marker? = none ∧
    statement.callees = []

instance (statement : Statement) : Decidable statement.IsIdle :=
  inferInstanceAs (Decidable (_ ∧ _ ∧ _ ∧ _))

/-- The statements that are not idle. -/
def live (statements : List Statement) : List Statement :=
  statements.filter fun statement => ¬statement.IsIdle

@[simp] theorem live_nil : live [] = [] := rfl

@[simp] theorem live_append (left right : List Statement) :
    live (left ++ right) = live left ++ live right :=
  List.filter_append left right

theorem live_cons_of_isIdle
    {statement : Statement}
    (idle : statement.IsIdle)
    (statements : List Statement) :
    live (statement :: statements) = live statements := by
  simp [live, idle]

theorem live_cons_of_not_isIdle
    {statement : Statement}
    (busy : ¬statement.IsIdle)
    (statements : List Statement) :
    live (statement :: statements) = statement :: live statements := by
  simp [live, busy]

/-- Idle statements of no kind can be left out before statements of that kind are looked for. -/
theorem flatMap_live
    {β : Type}
    {f : Statement → List β}
    (silent : ∀ statement : Statement, statement.IsIdle → f statement = [])
    (statements : List Statement) :
    (live statements).flatMap f = statements.flatMap f := by
  induction statements with
  | nil => rfl
  | cons statement statements inductionHypothesis =>
      by_cases idle : statement.IsIdle
      · rw [live_cons_of_isIdle idle, List.flatMap_cons, silent statement idle, List.nil_append,
          inductionHypothesis]
      · rw [live_cons_of_not_isIdle idle, List.flatMap_cons, List.flatMap_cons,
          inductionHypothesis]

/-- Idle statements have no say in where a block ends. -/
theorem takeBlock?_live (depth : Nat) (statements : List Statement) :
    takeBlock? depth (live statements) =
      (takeBlock? depth statements).map fun (inside, behind) => (live inside, live behind) := by
  induction statements generalizing depth with
  | nil => rfl
  | cons statement statements inductionHypothesis =>
      by_cases idle : statement.IsIdle
      · have same : statement.depthAfter? depth = some depth := by
          simp only [depthAfter?, idle.2.2.1]
        rw [live_cons_of_isIdle idle, inductionHypothesis, takeBlock?_cons_of_eq_some same,
          Option.map_map]
        congr 1
        funext ⟨inside, behind⟩
        simp only [Function.comp_apply, live_cons_of_isIdle idle]
      · rw [live_cons_of_not_isIdle idle]
        cases after : statement.depthAfter? depth with
        | none =>
            rw [takeBlock?_cons_of_eq_none after, takeBlock?_cons_of_eq_none after,
              Option.map_some]
            simp only [live_cons_of_not_isIdle idle, live_nil]
        | some next =>
            rw [takeBlock?_cons_of_eq_some after, takeBlock?_cons_of_eq_some after,
              inductionHypothesis, Option.map_map, Option.map_map]
            congr 1
            funext ⟨inside, behind⟩
            simp only [Function.comp_apply, live_cons_of_not_isIdle idle]

/-- Idle statements can be left out before extraction or after it. -/
theorem extract?_live (statements : List Statement) :
    extract? (live statements) = (extract? statements).map fun (entries, main) =>
      (entries.map fun (name, inside) => (name, live inside), live main) := by
  fun_induction extract? statements with
  | case1 => rw [live_nil, extract?]; rfl
  | case2 statement statements unnamed inductionHypothesis =>
      by_cases idle : statement.IsIdle
      · rw [live_cons_of_isIdle idle, inductionHypothesis, Option.map_map]
        congr 1
        funext ⟨entries, main⟩
        simp only [Function.comp_apply, live_cons_of_isIdle idle]
      · rw [live_cons_of_not_isIdle idle, extract?_cons_of_eq_none unnamed, inductionHypothesis,
          Option.map_map, Option.map_map]
        congr 1
        funext ⟨entries, main⟩
        simp only [Function.comp_apply, live_cons_of_not_isIdle idle]
  | case3 statement statements name named unclosed =>
      have busy : ¬statement.IsIdle := by
        intro idle
        rw [definedName?, idle.2.2.1] at named
        cases named
      have stillUnclosed := takeBlock?_live 0 statements
      rw [unclosed] at stillUnclosed
      rw [live_cons_of_not_isIdle busy, extract?, named]
      simp only
      split
      next => rfl
      next found =>
        rw [stillUnclosed] at found
        cases found
  | case4 statement statements name named inside behind taken inductionHypothesis =>
      have busy : ¬statement.IsIdle := by
        intro idle
        rw [definedName?, idle.2.2.1] at named
        cases named
      have stillTaken := takeBlock?_live 0 statements
      rw [taken] at stillTaken
      rw [live_cons_of_not_isIdle busy, extract?_cons_of_eq_some named stillTaken,
        inductionHypothesis, Option.map_map, Option.map_map]
      congr 1
      funext ⟨entries, main⟩
      simp only [Function.comp_apply, List.map_cons, live_cons_of_not_isIdle busy]

end Statement

/-! ## Closing a block by statements -/

/-- Characters in front of a block do not change where it ends. -/
theorem Block.exists_close_of_map_char
    {line : Nat}
    {innermost : OpenBlock}
    {outer : List OpenBlock}
    {text : Text}
    {pieces inside behind : List (Piece Marker)}
    (closed : close line innermost outer (text.map .char ++ pieces) = .ok (inside, behind)) :
    ∃ line' part, close line' innermost outer pieces = .ok (part, behind) ∧
      inside = text.map .char ++ part := by
  induction text generalizing line inside with
  | nil => exact ⟨line, inside, closed, rfl⟩
  | cons c text inductionHypothesis =>
      rw [List.map_cons, List.cons_append, close] at closed
      obtain ⟨⟨part, rest⟩, found, equal⟩ := bind_eq_ok_iff.mp closed
      obtain ⟨rfl, rfl⟩ := Prod.mk.inj (pure_eq_ok_iff.mp equal)
      obtain ⟨line', inner, innerFound, rfl⟩ := inductionHypothesis found
      exact ⟨line', inner, innerFound, rfl⟩

namespace Marker

/-- A marker and the rest of its statement make up the statement. -/
theorem text_append_drop
    {statement : Statement}
    (plain : statement.IsPlain)
    {marker : Marker}
    (found : statement.marker? = some marker) :
    marker.text ++ statement.text.drop marker.text.length = statement.text := by
  have whole := form.join_split statement.text
  rw [split_text plain, found, Option.elim_some, Form.join_cons] at whole
  conv => rhs; rw [← whole]
  rw [Form.join, Form.flatMap_text_map_char]
  rfl

theorem split_join_cons
    {piece : Piece Statement}
    {pieces : List (Piece Statement)}
    (delimited : Statement.Delimited (piece :: pieces)) :
    form.split (Statement.form.join (piece :: pieces)) =
      form.split (piece.text Statement.text) ++ form.split (Statement.form.join pieces) := by
  have others : Statement.Delimited pieces := by
    cases delimited with
    | char _ others => exact others
    | phrase _ others => exact others
  rw [form_isBraced.split_join delimited, form_isBraced.split_join others, List.flatMap_cons]

end Marker

namespace Statement

theorem interior_eq_of_marker?_closes
    {statement : Statement}
    (closes : statement.marker? = some .closes) :
    statement = ending := by
  unfold marker? at closes
  rw [Option.or_eq_some_iff] at closes
  rcases closes with found | ⟨_, isEnd⟩
  · obtain ⟨keyword, _, equal⟩ := Option.map_eq_some_iff.mp found
    cases equal
  · split at isEnd
    next equal =>
      cases statement
      exact congrArg Statement.mk equal
    next => cases isEnd

theorem depthAfter?_of_marker?_eq_none
    {statement : Statement}
    (none : statement.marker? = none)
    (depth : Nat) :
    statement.depthAfter? depth = some depth := by
  simp only [depthAfter?, none]

theorem depthAfter?_of_opens
    {statement : Statement}
    {keyword : Keyword}
    (opens : statement.marker? = some (.opens keyword))
    (depth : Nat) :
    statement.depthAfter? depth = some (depth + 1) := by
  simp only [depthAfter?, opens]

/-- Closing a block in a delimited text ends behind one of its statements. -/
theorem exists_takeBlock?_of_close
    {line : Nat}
    {innermost : OpenBlock}
    {outer : List OpenBlock}
    {pieces : List (Piece Statement)}
    (delimited : Delimited pieces)
    {inside behind : List (Piece Marker)}
    (closed : Block.close line innermost outer (Marker.form.split (form.join pieces)) =
      .ok (inside, behind)) :
    ∃ front rest, pieces = front ++ rest ∧ Marker.form.join inside = form.join front ∧
      behind = Marker.form.split (form.join rest) ∧
      takeBlock? outer.length (pieces.filterMap Piece.phrase?) =
        some (front.filterMap Piece.phrase?, rest.filterMap Piece.phrase?) := by
  induction delimited generalizing line innermost outer inside with
  | nil =>
      rw [Form.join_nil, Form.split_nil, Block.close] at closed
      cases closed
  | @char c pieces single others inductionHypothesis =>
      rw [Marker.split_join_cons (.char single others), Piece.text_char,
        Marker.form_isBraced.split_singleton, List.singleton_append, Block.close] at closed
      obtain ⟨⟨part, rest⟩, found, equal⟩ := bind_eq_ok_iff.mp closed
      obtain ⟨rfl, rfl⟩ := Prod.mk.inj (pure_eq_ok_iff.mp equal)
      obtain ⟨front, rest, rfl, join_eq, rfl, taken⟩ := inductionHypothesis found
      refine ⟨.char c :: front, rest, rfl, ?_, rfl, taken⟩
      rw [Form.join_cons, join_eq]
      rfl
  | @phrase statement pieces plain others inductionHypothesis =>
      rw [Marker.split_join_cons (.phrase plain others), Piece.text_phrase,
        Marker.split_text plain] at closed
      have extend {depth next : Nat} {front rest : List (Piece Statement)}
          (after : statement.depthAfter? depth = some next)
          (taken : takeBlock? next (pieces.filterMap Piece.phrase?) =
            some (front.filterMap Piece.phrase?, rest.filterMap Piece.phrase?)) :
          takeBlock? depth ((Piece.phrase statement :: pieces).filterMap Piece.phrase?) =
            some ((Piece.phrase statement :: front).filterMap Piece.phrase?,
              rest.filterMap Piece.phrase?) := by
        rw [List.filterMap_cons_some (Piece.phrase?_phrase statement),
          takeBlock?_cons_of_eq_some after, taken]
        rfl
      cases found : statement.marker? with
      | none =>
          rw [found, Option.elim_none] at closed
          obtain ⟨line', part, innerClosed, rfl⟩ := Block.exists_close_of_map_char closed
          obtain ⟨front, rest, rfl, join_eq, behind_eq, taken⟩ := inductionHypothesis innerClosed
          refine ⟨.phrase statement :: front, rest, rfl, ?_, behind_eq,
            extend (depthAfter?_of_marker?_eq_none found _) taken⟩
          rw [Form.join_append, join_eq, Form.join, Form.flatMap_text_map_char]
          rfl
      | some marker =>
          have whole := Marker.text_append_drop plain found
          rw [found, Option.elim_some, List.cons_append] at closed
          cases marker with
          | opens keyword =>
              rw [Block.close] at closed
              obtain ⟨⟨part, rest⟩, opened, equal⟩ := bind_eq_ok_iff.mp closed
              obtain ⟨rfl, rfl⟩ := Prod.mk.inj (pure_eq_ok_iff.mp equal)
              obtain ⟨line', inner, innerClosed, rfl⟩ := Block.exists_close_of_map_char opened
              obtain ⟨front, rest, rfl, join_eq, behind_eq, taken⟩ :=
                inductionHypothesis innerClosed
              refine ⟨.phrase statement :: front, rest, rfl, ?_, behind_eq,
                extend (depthAfter?_of_opens found _) taken⟩
              rw [Form.join_cons, Form.join_append, join_eq, Form.join, Form.flatMap_text_map_char,
                ← List.append_assoc, Form.join_cons]
              exact congrArg (· ++ _) whole
          | closes =>
              obtain rfl := interior_eq_of_marker?_closes found
              have dropped : ending.text.drop Marker.closes.text.length = [] := by decide
              rw [dropped, List.map_nil, List.nil_append] at closed
              cases outer with
              | nil =>
                  rw [Block.close] at closed
                  obtain ⟨rfl, rfl⟩ := Prod.mk.inj (Except.ok.inj closed)
                  exact ⟨[.phrase ending], pieces, rfl, by decide, rfl, rfl⟩
              | cons next outer =>
                  rw [Block.close] at closed
                  obtain ⟨⟨part, rest⟩, opened, equal⟩ := bind_eq_ok_iff.mp closed
                  obtain ⟨rfl, rfl⟩ := Prod.mk.inj (pure_eq_ok_iff.mp equal)
                  obtain ⟨front, rest, rfl, join_eq, behind_eq, taken⟩ :=
                    inductionHypothesis opened
                  refine ⟨.phrase ending :: front, rest, rfl, ?_, behind_eq, extend rfl taken⟩
                  rw [Form.join_cons, join_eq, Form.join_cons]
                  rfl

end Statement

/-! ## Extraction by statements -/

namespace Program

/-- Characters in front belong to the main text. -/
theorem exists_takeDefinitions_of_map_char
    {line : Nat}
    {text : Text}
    {pieces : List (Piece Marker)}
    {program : Program}
    (taken : takeDefinitions line (text.map .char ++ pieces) = .ok program) :
    ∃ line' rest, takeDefinitions line' pieces = .ok rest ∧ program = rest.prependMain text := by
  induction text generalizing line program with
  | nil => exact ⟨line, program, taken, rfl⟩
  | cons c text inductionHypothesis =>
      rw [List.map_cons, List.cons_append, takeDefinitions] at taken
      obtain ⟨others, found, equal⟩ := bind_eq_ok_iff.mp taken
      obtain ⟨line', rest, restFound, rfl⟩ := inductionHypothesis found
      refine ⟨line', rest, restFound, ?_⟩
      rw [← pure_eq_ok_iff.mp equal]
      rfl

/-- A marker that starts no definition belongs to the main text. -/
theorem exists_takeDefinitions_of_eq_none
    {line : Nat}
    {marker : Marker}
    {pieces : List (Piece Marker)}
    (unnamed : definedName? marker pieces = none)
    {program : Program}
    (taken : takeDefinitions line (.phrase marker :: pieces) = .ok program) :
    ∃ rest, takeDefinitions line pieces = .ok rest ∧ program = rest.prependMain marker.text := by
  rw [takeDefinitions, unnamed] at taken
  obtain ⟨rest, found, equal⟩ := bind_eq_ok_iff.mp taken
  exact ⟨rest, found, (pure_eq_ok_iff.mp equal).symm⟩

/-- A marker that starts a definition is taken out together with its block. -/
theorem exists_takeDefinitions_of_eq_some
    {line : Nat}
    {marker : Marker}
    {pieces : List (Piece Marker)}
    {name : Text}
    (named : definedName? marker pieces = some name)
    {program : Program}
    (taken : takeDefinitions line (.phrase marker :: pieces) = .ok program) :
    ∃ inside behind line' rest,
      Block.close line ⟨.define, line⟩ [] pieces = .ok (inside, behind) ∧
      takeDefinitions line' (dropBreak behind) = .ok rest ∧
      program =
        rest.prependTemplate (definition name (marker.text ++ Marker.form.join inside) line) := by
  cases closed : Block.close line ⟨.define, line⟩ [] pieces with
  | error block =>
      rw [takeDefinitions_cons_of_error named closed] at taken
      cases taken
  | ok parts =>
      rw [takeDefinitions_cons_of_ok named closed] at taken
      obtain ⟨rest, found, equal⟩ := bind_eq_ok_iff.mp taken
      exact ⟨_, _, _, rest, rfl, found, (pure_eq_ok_iff.mp equal).symm⟩

/-- The line break behind a definition is one of the pieces. -/
theorem exists_dropBreak_split_join
    {pieces : List (Piece Statement)}
    (delimited : Statement.Delimited pieces) :
    ∃ rest, rest <:+ pieces ∧ rest.filterMap Piece.phrase? = pieces.filterMap Piece.phrase? ∧
      dropBreak (Marker.form.split (Statement.form.join pieces)) =
        Marker.form.split (Statement.form.join rest) := by
  cases delimited with
  | nil => exact ⟨[], List.suffix_rfl, rfl, by rw [Form.join_nil, Form.split_nil]; rfl⟩
  | @char c pieces single others =>
      have split := Marker.split_join_cons (.char single others)
      rw [Piece.text_char, Marker.form_isBraced.split_singleton, List.singleton_append] at split
      by_cases newline : c = '\n'
      · subst newline
        refine ⟨pieces, List.suffix_cons _ pieces, rfl, ?_⟩
        rw [split, dropBreak]
      · refine ⟨.char c :: pieces, List.suffix_rfl, rfl, ?_⟩
        rw [split, dropBreak]
        exact fun _ equal => newline (Piece.char.inj (List.cons.inj equal).1)
  | @phrase statement pieces plain others =>
      refine ⟨.phrase statement :: pieces, List.suffix_rfl, rfl, ?_⟩
      rw [Marker.split_join_cons (.phrase plain others), Piece.text_phrase,
        Marker.split_text plain]
      cases statement.marker? with
      | none =>
          rw [Option.elim_none, dropBreak]
          exact fun _ equal => absurd (Piece.char.inj (List.cons.inj equal).1) (by decide)
      | some marker =>
          rw [Option.elim_some, List.cons_append, dropBreak]
          exact fun _ equal => nomatch (List.cons.inj equal).1

end Program

/-- The template has the name and the statements, and the signature that they show. -/
structure Template.Presents (template : Template) (entry : Text × List Statement) : Prop where
  /-- The name of the template. -/
  name_eq : template.name = entry.1
  /-- The statements of the template do not nest. -/
  wellDelimited : template.text.WellDelimited
  /-- The statements of the template. -/
  phrases_eq : Statement.form.phrases template.text = entry.2
  /-- The signature is the one that the text shows. -/
  signature_eq : template.signature = Signature.ofText template.text

/-- The program has the templates and the main text that extraction finds among the statements. -/
def Program.Presents (program : Program) (statements : List Statement) : Prop :=
  ∃ entries main, Statement.extract? statements = some (entries, main.filterMap Piece.phrase?) ∧
    List.Forall₂ Template.Presents program.templates entries ∧
    (∀ piece ∈ main, Statement.IsFlatPiece piece) ∧ program.main = Statement.form.join main

namespace Program.Presents

variable {program : Program} {statements : List Statement}

theorem prependMain_char
    {c : Char}
    (presents : program.Presents statements)
    (flat : Statement.IsFlatPiece (.char c)) :
    (program.prependMain [c]).Presents statements := by
  obtain ⟨entries, main, extracted, templates, flatMain, main_eq⟩ := presents
  refine ⟨entries, .char c :: main, extracted, templates,
    List.forall_mem_cons.mpr ⟨flat, flatMain⟩, ?_⟩
  rw [Form.join_cons, ← main_eq]
  rfl

/-- A statement that starts no definition is kept in the main text. -/
theorem prependMain_text
    {statement : Statement}
    (presents : program.Presents statements)
    (flat : statement.interior.IsFlat)
    (unnamed : statement.definedName? = none) :
    (program.prependMain statement.text).Presents (statement :: statements) := by
  obtain ⟨entries, main, extracted, templates, flatMain, main_eq⟩ := presents
  refine ⟨entries, .phrase statement :: main, ?_, templates,
    List.forall_mem_cons.mpr ⟨flat, flatMain⟩, ?_⟩
  · rw [Statement.extract?_cons_of_eq_none unnamed, extracted]
    rfl
  · rw [Form.join_cons, ← main_eq]
    rfl

/-- A statement that starts a definition is taken out together with its block. -/
theorem prependTemplate
    {statement : Statement}
    {name : Text}
    (named : statement.definedName? = some name)
    {inside behind : List Statement}
    (taken : Statement.takeBlock? 0 statements = some (inside, behind))
    {template : Template}
    (presented : template.Presents (name, statement :: inside))
    (presents : program.Presents behind) :
    (program.prependTemplate template).Presents (statement :: statements) := by
  obtain ⟨entries, main, extracted, templates, flatMain, main_eq⟩ := presents
  refine ⟨(name, statement :: inside) :: entries, main, ?_, .cons presented templates, flatMain,
    main_eq⟩
  rw [Statement.extract?_cons_of_eq_some named taken, extracted]
  rfl

end Program.Presents

namespace Statement

/-- The marker at the start of a statement and the statement start the same definition. -/
theorem definedName?_eq_definedName?
    {statement : Statement}
    (flat : statement.interior.IsFlat)
    (closes : statement.ClosesQuote)
    {marker : Marker}
    (found : statement.marker? = some marker)
    (pieces : List (Piece Marker)) :
    Program.definedName? marker
        ((statement.text.drop marker.text.length).map .char ++ pieces) =
      statement.definedName? := by
  by_cases define : marker = .opens .define
  · subst define
    rw [Program.definedName?, Form.join_append, Form.join, Form.flatMap_text_map_char]
    exact headName?_eq_definedName? flat closes found _
  · rw [definedName?, found, if_neg fun equal => define (Option.some.inj equal),
      Program.definedName?]
    exact fun equal => define equal

/-- The block that a statement opens is the statement with the pieces up to its end. -/
theorem exists_takeBlock?_of_close_drop
    {statement : Statement}
    (plain : statement.IsPlain)
    {marker : Marker}
    (found : statement.marker? = some marker)
    {pieces : List (Piece Statement)}
    (delimited : Delimited pieces)
    {line : Nat}
    {innermost : OpenBlock}
    {inside behind : List (Piece Marker)}
    (closed : Block.close line innermost []
      ((statement.text.drop marker.text.length).map .char ++
        Marker.form.split (form.join pieces)) = .ok (inside, behind)) :
    ∃ front rest, pieces = front ++ rest ∧
      marker.text ++ Marker.form.join inside = form.join (.phrase statement :: front) ∧
      behind = Marker.form.split (form.join rest) ∧
      takeBlock? 0 (pieces.filterMap Piece.phrase?) =
        some (front.filterMap Piece.phrase?, rest.filterMap Piece.phrase?) := by
  obtain ⟨_, part, partClosed, rfl⟩ := Block.exists_close_of_map_char closed
  obtain ⟨front, rest, pieces_eq, join_eq, behind_eq, taken⟩ :=
    exists_takeBlock?_of_close delimited partClosed
  refine ⟨front, rest, pieces_eq, ?_, behind_eq, taken⟩
  rw [Form.join_append, join_eq, Form.join_cons, ← List.append_assoc, Form.join,
    Form.flatMap_text_map_char]
  exact congrArg (· ++ _) (Marker.text_append_drop plain found)

end Statement

/-- Taking the definitions out of a well-delimited text extracts them from its statements. -/
theorem Program.presents_of_takeDefinitions
    {line : Nat}
    {pieces : List (Piece Statement)}
    (flat : ∀ piece ∈ pieces, Statement.IsFlatPiece piece)
    (heads : ∀ statement ∈ pieces.filterMap Piece.phrase?, statement.ClosesQuote)
    {program : Program}
    (taken : takeDefinitions line (Marker.form.split (Statement.form.join pieces)) =
      .ok program) :
    program.Presents (pieces.filterMap Piece.phrase?) := by
  have delimited := Statement.delimited_of_isFlatPiece flat
  match pieces with
  | [] =>
      rw [Form.join_nil, Form.split_nil, takeDefinitions] at taken
      obtain rfl := Except.ok.inj taken
      exact ⟨[], [], by rw [Statement.extract?.eq_def]; rfl, .nil, by simp, rfl⟩
  | .char c :: pieces =>
      obtain ⟨flatChar, flatPieces⟩ := List.forall_mem_cons.mp flat
      rw [Marker.split_join_cons delimited, Piece.text_char,
        Marker.form_isBraced.split_singleton, List.singleton_append, takeDefinitions] at taken
      obtain ⟨rest, restTaken, equal⟩ := bind_eq_ok_iff.mp taken
      rw [← pure_eq_ok_iff.mp equal]
      exact (presents_of_takeDefinitions flatPieces heads restTaken).prependMain_char flatChar
  | .phrase statement :: pieces =>
      obtain ⟨flatStatement, flatPieces⟩ := List.forall_mem_cons.mp flat
      rw [List.filterMap_cons_some (Piece.phrase?_phrase statement)] at heads ⊢
      obtain ⟨closes, headsPieces⟩ := List.forall_mem_cons.mp heads
      have plain := Statement.isPlain_of_isFlat flatStatement
      rw [Marker.split_join_cons delimited, Piece.text_phrase, Marker.split_text plain] at taken
      cases found : statement.marker? with
      | none =>
          rw [found, Option.elim_none] at taken
          obtain ⟨line', rest, restTaken, rfl⟩ := exists_takeDefinitions_of_map_char taken
          have unnamed : statement.definedName? = none := by
            rw [Statement.definedName?, found]
            rfl
          exact (presents_of_takeDefinitions flatPieces headsPieces restTaken).prependMain_text
            flatStatement unnamed
      | some marker =>
          rw [found, Option.elim_some, List.cons_append] at taken
          have name_eq := Statement.definedName?_eq_definedName? flatStatement closes found
            (Marker.form.split (Statement.form.join pieces))
          cases named : statement.definedName? with
          | none =>
              rw [named] at name_eq
              obtain ⟨others, othersTaken, rfl⟩ := exists_takeDefinitions_of_eq_none name_eq taken
              obtain ⟨line', rest, restTaken, rfl⟩ :=
                exists_takeDefinitions_of_map_char othersTaken
              have whole : (rest.prependMain (statement.text.drop marker.text.length)).prependMain
                  marker.text = rest.prependMain statement.text := by
                rw [← Marker.text_append_drop plain found]
                simp [prependMain]
              rw [whole]
              exact (presents_of_takeDefinitions flatPieces headsPieces restTaken).prependMain_text
                flatStatement named
          | some name =>
              rw [named] at name_eq
              obtain ⟨inside, behind, line', rest, closed, restTaken, rfl⟩ :=
                exists_takeDefinitions_of_eq_some name_eq taken
              obtain ⟨front, others, pieces_eq, text_eq, rfl, block⟩ :=
                Statement.exists_takeBlock?_of_close_drop plain found
                  (Statement.delimited_of_isFlatPiece flatPieces) closed
              rw [pieces_eq] at flatPieces headsPieces
              obtain ⟨flatFront, flatOthers⟩ := List.forall_mem_append.mp flatPieces
              have flatBlock : ∀ piece ∈ Piece.phrase statement :: front,
                  Statement.IsFlatPiece piece :=
                List.forall_mem_cons.mpr ⟨flatStatement, flatFront⟩
              have presented : Template.Presents
                  (definition name (marker.text ++ Marker.form.join inside) line)
                  (name, statement :: front.filterMap Piece.phrase?) :=
                ⟨rfl, ⟨_, flatBlock, text_eq.symm⟩,
                  (congrArg Statement.form.phrases text_eq).trans
                    (Statement.phrases_join_of_isFlatPiece flatBlock), rfl⟩
              -- behind the block, a line break is passed over before the search goes on
              obtain ⟨later, suffix, phrases_eq, drop_eq⟩ :=
                exists_dropBreak_split_join (Statement.delimited_of_isFlatPiece flatOthers)
              rw [drop_eq] at restTaken
              have shorter : later.length ≤ pieces.length := by
                rw [pieces_eq, List.length_append]
                exact suffix.length_le.trans (Nat.le_add_left _ _)
              have headsLater : ∀ other ∈ later.filterMap Piece.phrase?, other.ClosesQuote := by
                rw [phrases_eq]
                rw [List.filterMap_append] at headsPieces
                exact (List.forall_mem_append.mp headsPieces).2
              have presentsLater := presents_of_takeDefinitions
                (fun piece member => flatOthers piece (suffix.subset member)) headsLater restTaken
              rw [phrases_eq] at presentsLater
              exact .prependTemplate named block presented presentsLater
termination_by pieces.length
decreasing_by
  all_goals simp only [List.length_cons]
  all_goals omega

end OutputThreading
