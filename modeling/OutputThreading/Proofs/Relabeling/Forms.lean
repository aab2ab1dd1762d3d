import OutputThreading.Proofs.Print
import OutputThreading.Proofs.Relabeling
import OutputThreading.Variable
import OutputThreading.Line
import OutputThreading.Signature
import OutputThreading.Marker
import OutputThreading.Call.Basic

/-!
# Reading relabeled texts

Every form reads a relabeled text as it reads the text itself (`Form.Commutes`): the phrases stand at
the same places and carry labels in the place of their characters.  Markers and variables hold no
inert characters, so they are their own labels.
-/

namespace OutputThreading

/-! ## Forms -/

/-- The piece with its label. -/
def Piece.relabel {α : Type} (relabeling : Relabeling) (label : α → α) : Piece α → Piece α
  | .char c => .char (relabeling c)
  | .phrase item => .phrase (label item)

/-- The occurrence of a phrase with its label in the relabeled text. -/
def Form.Occurrence.relabel
    {α : Type}
    (relabeling : Relabeling)
    (label : α → α)
    (occurrence : Form.Occurrence α) : Form.Occurrence α :=
  ⟨occurrence.before.relabel relabeling, label occurrence.phrase,
    occurrence.after.relabel relabeling⟩

/-- Phrases that are read in a relabeled text are the labels of those in the text. -/
structure Form.Commutes
    {α : Type}
    (form : Form α)
    (relabeling : Relabeling)
    (label : α → α) : Prop where
  /-- At the start of a relabeled text the label of the phrase is read. -/
  read?_relabel : ∀ text : Text,
    form.read? (text.relabel relabeling) =
      (form.read? text).map (Prod.map label (Text.relabel relabeling))
  /-- The label of a phrase is written with labels. -/
  write_label : ∀ phrase, form.write (label phrase) = (form.write phrase).relabel relabeling

namespace Form.Commutes

variable {α : Type} {form : Form α} {relabeling : Relabeling} {label : α → α}

theorem split_relabel (commutes : form.Commutes relabeling label) (text : Text) :
    form.split (text.relabel relabeling) =
      (form.split text).map (Piece.relabel relabeling label) := by
  fun_induction form.split text with
  | case1 => exact form.split_nil
  | case2 c tail phrase rest found inductionHypothesis =>
      have foundLabel := commutes.read?_relabel (c :: tail)
      rw [found] at foundLabel
      rw [form.split_of_read? foundLabel, inductionHypothesis]
      rfl
  | case3 c tail notFound inductionHypothesis =>
      have notFoundLabel := commutes.read?_relabel (c :: tail)
      rw [notFound] at notFoundLabel
      rw [Text.relabel_cons] at notFoundLabel ⊢
      rw [form.split_cons_of_read?_eq_none notFoundLabel, inductionHypothesis]
      rfl

theorem join_map_relabel (commutes : form.Commutes relabeling label) (pieces : List (Piece α)) :
    form.join (pieces.map (Piece.relabel relabeling label)) =
      (form.join pieces).relabel relabeling := by
  induction pieces with
  | nil => rfl
  | cons piece pieces inductionHypothesis =>
      rw [List.map_cons, join_cons, join_cons, inductionHypothesis, Text.relabel_append]
      cases piece with
      | char c => rfl
      | phrase phrase => exact congrArg (· ++ _) (commutes.write_label phrase)

theorem phrases_relabel (commutes : form.Commutes relabeling label) (text : Text) :
    form.phrases (text.relabel relabeling) = (form.phrases text).map label := by
  rw [phrases, phrases, commutes.split_relabel, List.filterMap_map, List.map_filterMap]
  refine List.filterMap_congr fun piece _ => ?_
  cases piece <;> rfl

theorem occursIn_relabel (commutes : form.Commutes relabeling label) (text : Text) :
    form.occursIn (text.relabel relabeling) = form.occursIn text := by
  rw [occursIn, occursIn, commutes.phrases_relabel, List.isEmpty_map]

theorem replace_relabel
    (commutes : form.Commutes relabeling label)
    {replacement replacementLabel : α → Text}
    (same : ∀ phrase, replacementLabel (label phrase) = (replacement phrase).relabel relabeling)
    (text : Text) :
    form.replace replacementLabel (text.relabel relabeling) =
      (form.replace replacement text).relabel relabeling := by
  rw [replace, replace, commutes.split_relabel, List.flatMap_map, Text.relabel, List.map_flatMap]
  refine List.flatMap_congr fun piece _ => ?_
  cases piece with
  | char c => rfl
  | phrase phrase => exact same phrase

theorem occurrencesFrom_relabel
    (commutes : form.Commutes relabeling label)
    (seen : Text)
    (pieces : List (Piece α)) :
    form.occurrencesFrom (seen.relabel relabeling)
        (pieces.map (Piece.relabel relabeling label)) =
      (form.occurrencesFrom seen pieces).map (Occurrence.relabel relabeling label) := by
  induction pieces generalizing seen with
  | nil => rfl
  | cons piece pieces inductionHypothesis =>
      cases piece with
      | char c => exact inductionHypothesis (c :: seen)
      | phrase phrase =>
          have passed := inductionHypothesis ((form.write phrase).reverse ++ seen)
          rw [Text.relabel_append, Text.relabel_reverse, ← commutes.write_label] at passed
          rw [List.map_cons, Piece.relabel, occurrencesFrom, occurrencesFrom, passed,
            commutes.join_map_relabel, ← Text.relabel_reverse]
          rfl

theorem occurrences_relabel (commutes : form.Commutes relabeling label) (text : Text) :
    form.occurrences (text.relabel relabeling) =
      (form.occurrences text).map (Occurrence.relabel relabeling label) := by
  rw [occurrences, occurrences, commutes.split_relabel]
  exact commutes.occurrencesFrom_relabel [] (form.split text)

theorem linedFrom_relabel
    (commutes : form.Commutes relabeling label)
    (line : Nat)
    (pieces : List (Piece α)) :
    form.linedFrom line (pieces.map (Piece.relabel relabeling label)) =
      (form.linedFrom line pieces).map (Prod.map id label) := by
  induction pieces generalizing line with
  | nil => rfl
  | cons piece pieces inductionHypothesis =>
      cases piece with
      | char c =>
          simp only [List.map_cons, Piece.relabel, linedFrom, inductionHypothesis,
            relabeling.newline_eq_iff]
      | phrase phrase =>
          simp only [List.map_cons, Piece.relabel, linedFrom, commutes.write_label,
            Text.breaks_relabel, inductionHypothesis]
          rfl

theorem lined_relabel (commutes : form.Commutes relabeling label) (text : Text) :
    form.lined (text.relabel relabeling) = (form.lined text).map (Prod.map id label) := by
  rw [lined, lined, commutes.split_relabel, commutes.linedFrom_relabel]

theorem replaceInLineFrom_relabel
    (commutes : form.Commutes relabeling label)
    {replacement replacementLabel : Text → α → Text}
    (same : ∀ line phrase, replacementLabel (line.relabel relabeling) (label phrase) =
      (replacement line phrase).relabel relabeling)
    (line : Text)
    (pieces : List (Piece α)) :
    form.replaceInLineFrom replacementLabel (line.relabel relabeling)
        (pieces.map (Piece.relabel relabeling label)) =
      (form.replaceInLineFrom replacement line pieces).relabel relabeling := by
  induction pieces generalizing line with
  | nil => rfl
  | cons piece pieces inductionHypothesis =>
      cases piece with
      | char c =>
          have passed := inductionHypothesis (if c = '\n' then [] else c :: line)
          simp only [List.map_cons, Piece.relabel, replaceInLineFrom, relabeling.newline_eq_iff,
            Text.relabel_cons, ← passed]
          split <;> rfl
      | phrase phrase =>
          have passed := inductionHypothesis
            (((form.write phrase).reverse ++ line).takeWhile (· ≠ '\n'))
          rw [← Text.takeWhile_relabel relabeling (Text.isNewline_relabel relabeling),
            Text.relabel_append, Text.relabel_reverse, ← commutes.write_label] at passed
          simp only [List.map_cons, Piece.relabel, replaceInLineFrom, passed,
            ← Text.relabel_reverse, same, Text.relabel_append]

theorem replaceInLine_relabel
    (commutes : form.Commutes relabeling label)
    {replacement replacementLabel : Text → α → Text}
    (same : ∀ line phrase, replacementLabel (line.relabel relabeling) (label phrase) =
      (replacement line phrase).relabel relabeling)
    (text : Text) :
    form.replaceInLine replacementLabel (text.relabel relabeling) =
      (form.replaceInLine replacement text).relabel relabeling := by
  rw [replaceInLine, replaceInLine, commutes.split_relabel]
  exact commutes.replaceInLineFrom_relabel same [] (form.split text)

end Form.Commutes

/-- What holds of every phrase that is read holds of the phrases of a text. -/
theorem Form.forall_mem_phrases
    {α : Type}
    (form : Form α)
    {property : α → Prop}
    (reads : ∀ {text rest : Text} {phrase : α},
      form.read? text = some (phrase, rest) → property phrase)
    (text : Text) :
    ∀ phrase ∈ form.phrases text, property phrase := by
  unfold phrases
  fun_induction form.split text with
  | case1 => simp
  | case2 c tail phrase rest found inductionHypothesis =>
      simpa using ⟨reads found, by simpa using inductionHypothesis⟩
  | case3 c tail notFound inductionHypothesis =>
      simpa [List.filterMap_cons] using inductionHypothesis

/-! ## Statements, markers and variables -/

section Statements

variable (relabeling : Relabeling)

/-- The statement with labels in the place of its characters. -/
def Statement.relabel (statement : Statement) : Statement :=
  ⟨statement.interior.relabel relabeling⟩

theorem Statement.text_relabel (statement : Statement) :
    (statement.relabel relabeling).text = statement.text.relabel relabeling := by
  rw [text, text, Text.relabel_append, Text.relabel_append,
    Text.relabel_of_isCode relabeling opening rfl, Text.relabel_of_isCode relabeling closing rfl]
  rfl

theorem Statement.form_commutes : form.Commutes relabeling (relabel relabeling) where
  read?_relabel text := by
    change read? _ = (read? text).map _
    rw [read?, read?, Text.after?_relabel relabeling _ (.of_isCode rfl)]
    cases text.after? opening with
    | none => rfl
    | some inside =>
        simp only [Option.map_some, Option.bind_eq_bind, Option.bind_some,
          Text.breakOn?_relabel relabeling closing (.of_isCode rfl)]
        cases inside.breakOn? closing with
        | none => rfl
        | some parts =>
            simp only [Option.map_some, Option.bind_some, Text.relabelBoth,
              Text.newline_mem_relabel_iff]
            split <;> rfl
  write_label := Statement.text_relabel relabeling

theorem Marker.startsOutsideWord_relabel (text : Text) :
    startsOutsideWord (text.relabel relabeling) = startsOutsideWord text := by
  cases text with
  | nil => rfl
  | cons c text => simp [startsOutsideWord]

theorem Marker.text_isActive (marker : Marker) : marker.text.IsActive := by
  cases marker with
  | opens keyword => cases keyword <;> exact .of_isCode rfl
  | closes => exact .of_isCode rfl

theorem Marker.form_commutes : form.Commutes relabeling id where
  read?_relabel text := by
    have opener (keyword : Keyword) : readOpener? (text.relabel relabeling) keyword =
        (readOpener? text keyword).map (Prod.map id (Text.relabel relabeling)) := by
      rw [readOpener?, readOpener?, Text.after?_relabel relabeling keyword.opener
        (text_isActive (.opens keyword))]
      cases text.after? keyword.opener with
      | none => rfl
      | some rest =>
          simp only [Option.map_some, Option.bind_eq_bind, Option.bind_some,
            startsOutsideWord_relabel]
          split <;> rfl
    have closer : readCloser? (text.relabel relabeling) =
        (readCloser? text).map (Prod.map id (Text.relabel relabeling)) := by
      rw [readCloser?, readCloser?, Text.after?_relabel relabeling Marker.closer
        (text_isActive .closes)]
      cases text.after? Marker.closer <;> rfl
    change read? _ = (read? text).map _
    rw [read?, read?, closer, Option.map_or, List.map_findSome?]
    exact congrArg (fun open? => (Keyword.all.findSome? open?).or _) (funext opener)
  write_label marker := (Text.relabel_eq_self relabeling _ marker.text_isActive).symm

/-- The variable with labels in the place of its characters. -/
def Variable.relabel (token : Variable) : Variable :=
  ⟨token.name.relabel relabeling⟩

theorem Variable.form_commutes : form.Commutes relabeling (relabel relabeling) where
  read?_relabel text := by
    change read? _ = (read? text).map _
    rw [read?, read?, Text.after?_relabel relabeling _ (.of_isCode rfl)]
    cases text.after? ['$'] with
    | none => rfl
    | some rest =>
        simp only [Option.map_some, Option.bind_eq_bind, Option.bind_some,
          Text.takeWhile_relabel relabeling (Character.isWord_relabel relabeling),
          Text.dropWhile_relabel relabeling (Character.isWord_relabel relabeling),
          Text.relabel_eq_nil_iff]
        split <;> rfl
  write_label token := by
    change '$' :: token.name.relabel relabeling = Text.relabel relabeling ('$' :: token.name)
    rw [Text.relabel_cons, relabeling.eq_self (Character.isInert_eq_false_of_isCode rfl)]

/-- The variables of a text are words, so they are their own labels. -/
theorem Variable.relabel_eq_self (text : Text) :
    ∀ token ∈ form.phrases text, token.relabel relabeling = token := by
  refine form.forall_mem_phrases ?_ text
  intro text rest token found
  have read : read? text = some (token, rest) := found
  simp only [read?, Option.bind_eq_bind, Option.bind_eq_some_iff,
    Option.ite_none_left_eq_some, Option.some.injEq, Prod.mk.injEq] at read
  obtain ⟨inside, _, _, rfl, _⟩ := read
  refine congrArg Variable.mk (Text.relabel_eq_self relabeling _ fun c member => ?_)
  have word := List.all_eq_true.mp List.all_takeWhile c member
  simp [Character.isInert, word]

theorem Variable.lined_relabel (text : Text) :
    form.lined (text.relabel relabeling) = form.lined text := by
  rw [(form_commutes relabeling).lined_relabel]
  conv => rhs; rw [← List.map_id (form.lined text)]
  refine List.map_congr_left fun item member => congrArg (Prod.mk item.1) ?_
  apply relabel_eq_self relabeling text
  rw [← form.map_snd_lined text]
  exact List.mem_map_of_mem member

theorem Text.variableNames_relabel (text : Text) :
    (text.relabel relabeling).variableNames = text.variableNames := by
  rw [variableNames, variableNames, ← Form.map_snd_lined, Variable.lined_relabel,
    Form.map_snd_lined]

end Statements

/-! ## Prints and returns -/

section Prints

variable (relabeling : Relabeling)

/-- The print with labels in the place of its characters. -/
def Print.relabel (print : Print) : Print :=
  ⟨print.spacing.relabel relabeling, print.expression.relabel relabeling⟩

theorem Print.form_commutes : form.Commutes relabeling (relabel relabeling) where
  read?_relabel text := by
    change read? _ = (read? text).map _
    rw [read?, read?, Text.after?_relabel relabeling _ (.of_isCode rfl)]
    cases text.after? opener with
    | none => rfl
    | some inside =>
        simp only [Option.map_some, Option.bind_eq_bind, Option.bind_some, Text.trimStart_relabel,
          Text.breakOn?_relabel relabeling Statement.closing (.of_isCode rfl)]
        cases inside.trimStart.breakOn? Statement.closing with
        | none => rfl
        | some parts =>
            simp only [Option.map_some, Option.bind_some, Text.relabelBoth,
              Text.leadingSpace_relabel, Text.relabel_eq_nil_iff, Text.newline_mem_relabel_iff]
            split <;> rfl
  write_label print := by
    change Print.text _ = Text.relabel relabeling print.text
    simp only [Print.text, Print.relabel, Text.relabel_append,
      Text.relabel_of_isCode relabeling opener rfl,
      Text.relabel_of_isCode relabeling Statement.closing rfl]

/-- The return with labels in the place of its characters. -/
def Return.relabel (statement : Return) : Return :=
  ⟨statement.spacing.relabel relabeling, statement.expression.relabel relabeling,
    statement.trailing.relabel relabeling⟩

theorem Return.form_commutes : form.Commutes relabeling (relabel relabeling) where
  read?_relabel text := by
    change read? _ = (read? text).map _
    rw [read?, read?, Text.after?_relabel relabeling _ (.of_isCode rfl)]
    cases text.after? opener with
    | none => rfl
    | some inside =>
        simp only [Option.map_some, Option.bind_eq_bind, Option.bind_some, Text.trimStart_relabel,
          Text.breakOn?_relabel relabeling Statement.closing (.of_isCode rfl)]
        cases inside.trimStart.breakOn? Statement.closing with
        | none => rfl
        | some parts =>
            simp only [Option.map_some, Option.bind_some, Text.relabelBoth, Text.trimEnd_relabel,
              Text.trailingSpace_relabel, Text.leadingSpace_relabel, ne_eq,
              Text.relabel_eq_nil_iff, Text.newline_mem_relabel_iff]
            split <;> rfl
  write_label statement := by
    change Return.text _ = Text.relabel relabeling statement.text
    simp only [Return.text, Return.relabel, Text.relabel_append,
      Text.relabel_of_isCode relabeling opener rfl,
      Text.relabel_of_isCode relabeling Statement.closing rfl]

/-- A text and its label show the same signature. -/
theorem Signature.ofText_relabel (text : Text) :
    ofText (text.relabel relabeling) = ofText text := by
  have valued : Return.isValued ∘ Return.relabel relabeling = Return.isValued := by
    funext statement
    simp [Return.isValued, Return.relabel, Text.relabel]
  rw [ofText, ofText, (Print.form_commutes relabeling).occursIn_relabel,
    (Return.form_commutes relabeling).phrases_relabel, List.any_map, valued]

end Prints

/-! ## Calls -/

section Calls

variable (relabeling : Relabeling)

theorem Argument.opensClosed_relabel (c : Char) : opensClosed (relabeling c) = opensClosed c := by
  refine relabeling.apply_eq false (fun c inert => ?_) c
  have absent := (Character.isInert_iff.mp inert).2.2.2
  simp only [Character.marks, List.mem_cons, not_or] at absent
  simp [opensClosed, absent]

theorem Argument.opensOperand_relabel (c : Char) :
    opensOperand (relabeling c) = opensOperand c := by
  refine relabeling.apply_eq false (fun c inert => ?_) c
  obtain ⟨_, outside, notAlphanumeric, absent⟩ := Character.isInert_iff.mp inert
  have notUnderscore : c ≠ '_' := by
    rintro rfl
    exact absurd outside (by decide)
  simp only [Character.marks, List.mem_cons, not_or] at absent
  simp [opensOperand, absent, notAlphanumeric, notUnderscore]

theorem Argument.inOperand_relabel (c : Char) : inOperand (relabeling c) = inOperand c := by
  refine relabeling.apply_eq true (fun c inert => ?_) c
  obtain ⟨solid, _, _, absent⟩ := Character.isInert_iff.mp inert
  simp only [Character.marks, List.mem_cons, not_or] at absent
  simp [inOperand, absent, solid]

/-- A literal that is open ends at a quote. -/
def Argument.Nesting.EndsAtQuote : Nesting → Prop
  | literal quote _ => quote = '"' ∨ quote = '`'
  | _ => True

theorem Argument.Nesting.endsAtQuote_next
    {nesting : Nesting}
    (ends : nesting.EndsAtQuote)
    (c : Char) :
    (nesting.next c).EndsAtQuote := by
  cases nesting with
  | code depth =>
      rw [next]
      split
      next quote => exact quote
      next =>
        split
        · trivial
        · split <;> trivial
  | literal quote depth =>
      rw [next]
      split
      · trivial
      · split
        · trivial
        · exact ends
  | escaped depth => exact .inl rfl

/-- Inert characters change the nesting as a blank does. -/
theorem Argument.Nesting.next_relabel
    {nesting : Nesting}
    (ends : nesting.EndsAtQuote)
    (c : Char) :
    nesting.next (relabeling c) = nesting.next c := by
  refine relabeling.apply_eq (nesting.next ' ') (fun c inert => ?_) c
  have absent := (Character.isInert_iff.mp inert).2.2.2
  simp only [Character.marks, List.mem_cons, not_or] at absent
  cases nesting with
  | code depth => simp [next, absent]
  | literal quote depth => rcases ends with rfl | rfl <;> simp [next, absent]
  | escaped depth => rfl

theorem Argument.takeClosed_relabel
    {nesting : Nesting}
    (ends : nesting.EndsAtQuote)
    (text : Text) :
    takeClosed nesting (text.relabel relabeling) =
      Text.relabelBoth relabeling (takeClosed nesting text) := by
  induction text generalizing nesting with
  | nil => rfl
  | cons c text inductionHypothesis =>
      rw [Text.relabel_cons, takeClosed, takeClosed, Nesting.next_relabel relabeling ends,
        inductionHypothesis (Nesting.endsAtQuote_next ends c)]
      split <;> rfl

theorem Argument.splitTight_relabel (text : Text) :
    splitTight (text.relabel relabeling) =
      (splitTight text).map (Text.relabelBoth relabeling) := by
  have noLiteral : (Nesting.code 0).EndsAtQuote := trivial
  cases text with
  | nil => rfl
  | cons c text =>
      simp only [Text.relabel_cons, splitTight, opensClosed_relabel, opensOperand_relabel]
      simp only [← Text.relabel_cons, takeClosed_relabel relabeling noLiteral,
        Text.takeWhile_relabel relabeling (inOperand_relabel relabeling),
        Text.dropWhile_relabel relabeling (inOperand_relabel relabeling)]
      split
      · rfl
      · split <;> rfl

theorem Argument.split_relabel (text : Text) :
    split (text.relabel relabeling) = Text.relabelBoth relabeling (split text) := by
  rw [split, split, Text.leadingSpace_relabel, Text.trimStart_relabel, splitTight_relabel]
  simp only [Text.relabel_eq_nil_iff]
  split
  · rfl
  · cases splitTight text.trimStart with
    | none => rfl
    | some parts => simp [Text.relabelBoth]

/-- The call with labels in the place of its characters. -/
def Call.relabel (call : Call) : Call :=
  ⟨call.spacing.relabel relabeling, call.callee.relabel relabeling,
    call.argument.relabel relabeling⟩

theorem Call.text_relabel (call : Call) :
    (call.relabel relabeling).text = call.text.relabel relabeling := by
  simp only [text, relabel, Text.relabel_append,
    Text.relabel_of_isCode relabeling opener rfl,
    Text.relabel_of_isCode relabeling ['"'] rfl]

theorem Call.form_commutes : form.Commutes relabeling (relabel relabeling) where
  read?_relabel text := by
    change read? _ = (read? text).map _
    rw [read?, read?, Text.after?_relabel relabeling _ (.of_isCode rfl)]
    cases text.after? opener with
    | none => rfl
    | some behindWord =>
        simp only [Option.map_some, Option.bind_eq_bind, Option.bind_some, Text.trimStart_relabel,
          Text.after?_relabel relabeling ['"'] (.of_isCode rfl)]
        cases behindWord.trimStart.after? ['"'] with
        | none => rfl
        | some behindQuote =>
            simp only [Option.map_some, Option.bind_some,
              Text.breakOn?_relabel relabeling ['"'] (.of_isCode rfl)]
            cases behindQuote.breakOn? ['"'] with
            | none => rfl
            | some parts =>
                simp only [Option.map_some, Option.bind_some, Text.relabelBoth,
                  Text.leadingSpace_relabel, Text.relabel_eq_nil_iff,
                  Argument.split_relabel]
                split <;> rfl
  write_label := Call.text_relabel relabeling

theorem Statement.callees_relabel (statement : Statement) :
    (statement.relabel relabeling).callees = statement.callees.map (Text.relabel relabeling) := by
  rw [callees, callees, relabel, (Call.form_commutes relabeling).phrases_relabel, List.map_map,
    List.map_map]
  rfl

theorem Text.callees_relabel (text : Text) :
    (text.relabel relabeling).callees = text.callees.map (relabel relabeling) := by
  rw [callees, callees, (Statement.form_commutes relabeling).phrases_relabel, List.flatMap_map,
    List.map_flatMap]
  exact List.flatMap_congr fun statement _ => statement.callees_relabel relabeling

end Calls
end OutputThreading
