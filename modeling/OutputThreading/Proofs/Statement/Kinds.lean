import OutputThreading.Marker
import OutputThreading.Print
import OutputThreading.Proofs.Statement.Delimited
import OutputThreading.Proofs.Text.Space
import OutputThreading.Return

/-!
# Kinds of statements

Whether a statement is a print, a return or a block marker shows in its interior, whatever follows
the statement: `Statement.print?`, `Statement.return?` and `Statement.marker?` agree with what is read
at the start of its text.
-/

namespace OutputThreading

/-- The statement itself if it stands on one line. -/
def Statement.inline? (statement : Statement) : Option Statement :=
  if '\n' ∈ statement.interior then none else some statement

theorem Statement.form_isKind : Statement.form.IsKind Statement.inline? where
  opening_prefix statement := ⟨statement.interior ++ Statement.closing, rfl⟩
  read?_text_append {statement} plain rest := by
    show Statement.read? (statement.text ++ rest) = _
    rw [Statement.read?_text_append plain.closesOnce, Statement.inline?]
    split <;> rfl

/-- A plain statement on one line is found in its text. -/
theorem Statement.split_text_of_inline
    {statement : Statement}
    (plain : statement.IsPlain)
    (inline : '\n' ∉ statement.interior) :
    form.split statement.text = [.phrase statement] := by
  rw [form_isKind.split_text plain, inline?, if_neg inline]
  rfl

/-- Braces around a line break make no statement. -/
theorem Statement.split_text_of_newline
    {statement : Statement}
    (plain : statement.IsPlain)
    (newline : '\n' ∈ statement.interior) :
    form.split statement.text = statement.text.map .char := by
  rw [form_isKind.split_text plain, inline?, if_pos newline]
  rfl

theorem Statement.map_asRead_of_isFlat
    {statements : List Statement}
    (flat : ∀ statement ∈ statements, statement.interior.IsFlat) :
    statements.map Statement.asRead = statements := by
  conv => rhs; rw [← List.map_id statements]
  refine List.map_congr_left fun statement member => ?_
  exact (isPlain_of_isFlat (flat statement member)).closesOnce.asRead_eq

theorem Statement.filterMap_inline?_of_isFlat
    {statements : List Statement}
    (flat : ∀ statement ∈ statements, statement.interior.IsFlat) :
    statements.filterMap Statement.inline? = statements := by
  conv => rhs; rw [← List.filterMap_some (l := statements)]
  refine List.filterMap_congr fun statement member => ?_
  rw [inline?, if_neg ((flat statement member).notMem (by decide))]

/-! ## Prints -/

/-- The print that a statement is. -/
def Statement.print? (statement : Statement) : Option Print := do
  let behind ← statement.interior.after? "print".toList
  if behind.leadingSpace = [] ∨ '\n' ∈ behind.trimStart then none
  else some ⟨behind.leadingSpace, behind.trimStart⟩

namespace Print

theorem read?_text_append
    {statement : Statement}
    (closes : statement.ClosesOnce)
    (rest : Text) :
    read? (statement.text ++ rest) = statement.print?.map fun print => (print, rest) := by
  have brace : Character.isSpace '}' = false := by decide
  rw [read?, opener, Statement.after?_text_append (by decide), Statement.print?]
  cases found : statement.interior.after? "print".toList with
  | none => rfl
  | some behind =>
      have suffix : behind.trimStart <:+ statement.interior :=
        behind.trimStart_suffix.trans ⟨_, (Text.eq_append_of_after? found).symm⟩
      simp only [Option.map_some, Option.bind_eq_bind, Option.bind_some,
        Text.trimStart_append_cons brace, Text.leadingSpace_append_cons brace,
        closes.breakOn?_append suffix]
      split <;> rfl

theorem form_isKind : form.IsKind Statement.print? where
  opening_prefix print := by
    refine ⟨"print".toList ++ print.spacing ++ print.expression ++ Statement.closing, ?_⟩
    simp [form, text, opener]
  read?_text_append plain rest := read?_text_append plain.closesOnce rest

end Print

/-! ## Returns -/

/-- The return that a statement is. -/
def Statement.return? (statement : Statement) : Option Return := do
  let behind ← statement.interior.after? "return".toList
  let value := behind.trimStart
  if behind.leadingSpace = [] ∧ value ≠ [] ∨ '\n' ∈ value.trimEnd then none
  else some ⟨behind.leadingSpace, value.trimEnd, value.trailingSpace⟩

namespace Return

theorem read?_text_append
    {statement : Statement}
    (closes : statement.ClosesOnce)
    (rest : Text) :
    read? (statement.text ++ rest) = statement.return?.map fun found => (found, rest) := by
  have brace : Character.isSpace '}' = false := by decide
  rw [read?, opener, Statement.after?_text_append (by decide), Statement.return?]
  cases found : statement.interior.after? "return".toList with
  | none => rfl
  | some behind =>
      have suffix : behind.trimStart <:+ statement.interior :=
        behind.trimStart_suffix.trans ⟨_, (Text.eq_append_of_after? found).symm⟩
      simp only [Option.map_some, Option.bind_eq_bind, Option.bind_some,
        Text.trimStart_append_cons brace, Text.leadingSpace_append_cons brace,
        closes.breakOn?_append suffix]
      split <;> rfl

theorem form_isKind : form.IsKind Statement.return? where
  opening_prefix found := by
    refine ⟨"return".toList ++ found.spacing ++ found.expression ++ found.trailing ++
      Statement.closing, ?_⟩
    simp [form, text, opener]
  read?_text_append plain rest := read?_text_append plain.closesOnce rest

end Return

/-! ## Markers -/

/-- The text starts with the keyword as a word of its own. -/
def Keyword.leads (keyword : Keyword) (text : Text) : Bool :=
  (text.after? keyword.name).any Marker.startsOutsideWord

/-- The marker that a statement starts with. -/
def Statement.marker? (statement : Statement) : Option Marker :=
  ((Keyword.all.find? fun keyword => keyword.leads statement.interior).map .opens).or
    (if statement.interior = "end".toList then some .closes else none)

/-- The end statement. -/
def Statement.ending : Statement := ⟨"end".toList⟩

namespace Marker

theorem startsOutsideWord_append_closing (text rest : Text) :
    startsOutsideWord (text ++ '}' :: '}' :: rest) = startsOutsideWord text := by
  cases text with
  | nil =>
      have brace : Character.isWord '}' = false := Character.isWord_eq_false_of_delimits rfl
      simp [startsOutsideWord, brace]
  | cons c text => rfl

theorem brace_notMem_name (keyword : Keyword) : '}' ∉ keyword.name := by
  cases keyword <;> decide

theorem readOpener?_text_append
    (statement : Statement)
    (rest : Text)
    (keyword : Keyword) :
    readOpener? (statement.text ++ rest) keyword =
      if keyword.leads statement.interior then
        some (.opens keyword, statement.text.drop keyword.opener.length ++ rest)
      else none := by
  unfold readOpener? Keyword.opener Keyword.leads
  rw [Statement.after?_text_append (brace_notMem_name keyword)]
  cases found : statement.interior.after? keyword.name with
  | none => rfl
  | some behind =>
      have dropped : statement.text.drop (Statement.opening ++ keyword.name).length =
          behind ++ Statement.closing := by
        have whole : statement.text =
            (Statement.opening ++ keyword.name) ++ (behind ++ Statement.closing) := by
          rw [Statement.text, Text.eq_append_of_after? found]
          simp only [List.append_assoc]
        rw [whole, List.drop_left]
      rw [dropped]
      simp [startsOutsideWord_append_closing, Statement.closing]

theorem readCloser?_text_append
    {statement : Statement}
    (closes : statement.ClosesOnce)
    (rest : Text) :
    readCloser? (statement.text ++ rest) =
      if statement.interior = "end".toList then some (.closes, rest) else none := by
  unfold readCloser?
  split
  next isEnd =>
    have whole : statement.text ++ rest = closer ++ rest := by
      rw [Statement.text, isEnd, closer]
    rw [whole, Text.after?_append]
    rfl
  next notEnd =>
    rw [Option.map_eq_none_iff, Text.after?_eq_none_iff]
    rintro ⟨other, equal⟩
    have inside : "end".toList ++ (Statement.closing ++ other) =
        statement.interior ++ '}' :: '}' :: rest := by
      simpa [closer, Statement.text_append, Statement.opening] using equal
    have broken := closes.breakOn?_append List.suffix_rfl rest
    rw [← inside, ← List.append_assoc, Text.breakOn?_append Statement.closing_ne_nil (by decide)]
      at broken
    simp only [Option.some.injEq, Prod.mk.injEq] at broken
    exact notEnd broken.1.symm

theorem findSome?_ite
    {α β : Type}
    (accepts : α → Bool)
    (result : α → β)
    (items : List α) :
    (items.findSome? fun item => if accepts item then some (result item) else none) =
      (items.find? accepts).map result := by
  induction items with
  | nil => rfl
  | cons item items inductionHypothesis =>
      rw [List.findSome?_cons, List.find?_cons]
      cases accepts item with
      | true => rfl
      | false => exact inductionHypothesis

/-- The marker at the start of a statement is read with the rest of the statement behind it. -/
theorem read?_text_append
    {statement : Statement}
    (closes : statement.ClosesOnce)
    (rest : Text) :
    read? (statement.text ++ rest) = statement.marker?.map fun marker =>
      (marker, statement.text.drop marker.text.length ++ rest) := by
  have openers : (readOpener? (statement.text ++ rest)) = fun keyword =>
      if keyword.leads statement.interior then
        some (.opens keyword, statement.text.drop keyword.opener.length ++ rest)
      else none := by
    funext keyword
    exact readOpener?_text_append statement rest keyword
  unfold read? Statement.marker?
  rw [openers, findSome?_ite, readCloser?_text_append closes]
  cases Keyword.all.find? fun keyword => keyword.leads statement.interior with
  | some keyword => rfl
  | none =>
      split
      next isEnd =>
        have whole : statement.text = closer := by
          rw [Statement.text, isEnd, closer]
        simp [whole, text]
      next => rfl

theorem form_isBraced : form.IsBraced where
  opening_prefix {whole rest marker} found := by
    rw [eq_text_append_of_read? found]
    cases marker with
    | opens keyword => exact ⟨keyword.name ++ rest, by simp [text, Keyword.opener]⟩
    | closes => exact ⟨"end".toList ++ Statement.closing ++ rest, by simp [text, closer]⟩
  read?_text_append {statement} plain rest := by
    have alone := read?_text_append plain.closesOnce []
    rw [List.append_nil] at alone
    change read? (statement.text ++ rest) = (read? statement.text).map _
    rw [read?_text_append plain.closesOnce, alone]
    cases statement.marker? with
    | none => rfl
    | some marker => simp

/-- A statement splits into its marker and the rest of its text. -/
theorem split_text
    {statement : Statement}
    (plain : statement.IsPlain) :
    form.split statement.text = statement.marker?.elim (statement.text.map .char) fun marker =>
      .phrase marker :: (statement.text.drop marker.text.length).map .char := by
  have found := read?_text_append plain.closesOnce []
  rw [List.append_nil] at found
  have skipped {part : Text} (suffix : part <:+ '{' :: (statement.interior ++ Statement.closing)) :
      form.split part = part.map .char :=
    (form_isBraced.skips_of_suffix plain suffix []).split_eq
  cases kind : statement.marker? with
  | none =>
      rw [kind] at found
      have first : form.split statement.text =
          .char '{' :: form.split ('{' :: (statement.interior ++ Statement.closing)) :=
        form.split_cons_of_read?_eq_none found
      rw [first, skipped List.suffix_rfl]
      rfl
  | some marker =>
      rw [kind, Option.map_some, List.append_nil] at found
      have suffix : statement.text.drop marker.text.length <:+
          '{' :: (statement.interior ++ Statement.closing) := by
        obtain ⟨c, tail, text_eq⟩ := List.exists_cons_of_ne_nil marker.text_ne_nil
        rw [text_eq, List.length_cons]
        exact List.drop_suffix tail.length _
      rw [form.split_of_read? found, skipped suffix]
      rfl

theorem phrases_text
    {statement : Statement}
    (plain : statement.IsPlain) :
    form.phrases statement.text = statement.marker?.toList := by
  unfold Form.phrases
  rw [split_text plain]
  cases statement.marker? with
  | none => exact Form.filterMap_phrase?_map_char statement.text
  | some marker =>
      rw [Option.elim_some, List.filterMap_cons_some (Piece.phrase?_phrase marker),
        Form.filterMap_phrase?_map_char]
      rfl

/-- The markers of a delimited text are those of its statements. -/
theorem phrases_join
    {pieces : List (Piece Statement)}
    (delimited : Statement.Delimited pieces) :
    form.phrases (Statement.form.join pieces) =
      (pieces.filterMap Piece.phrase?).filterMap Statement.marker? :=
  form_isBraced.phrases_join phrases_text delimited

end Marker

/-- A statement that starts with a word at odds with all keywords is no marker. -/
theorem Statement.marker?_eq_none
    {statement : Statement}
    {word rest : Text}
    (interior : statement.interior = word ++ rest)
    (apart : ∀ name ∈ "end".toList :: Keyword.all.map Keyword.name,
      ¬name <+: word ∧ ¬word <+: name) :
    statement.marker? = none := by
  have differs {name : Text} (member : name ∈ "end".toList :: Keyword.all.map Keyword.name) :
      ¬name <+: statement.interior := by
    rw [interior]
    intro leading
    rcases List.prefix_or_prefix_of_prefix leading (List.prefix_append word rest) with short | long
    · exact (apart name member).1 short
    · exact (apart name member).2 long
  have noOpener : (Keyword.all.find? fun keyword => keyword.leads statement.interior) = none := by
    rw [List.find?_eq_none]
    intro keyword member leads
    have absent := Text.after?_eq_none_iff.mpr
      (differs (List.mem_cons_of_mem _ (List.mem_map_of_mem member)))
    simp [Keyword.leads, absent] at leads
  have noEnd : statement.interior ≠ "end".toList := by
    intro isEnd
    apply differs List.mem_cons_self
    rw [isEnd]
  unfold marker?
  rw [noOpener, if_neg noEnd]
  rfl

end OutputThreading
