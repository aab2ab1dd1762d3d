import OutputThreading.Compile
import OutputThreading.Proofs.NameSupply.Capture
import OutputThreading.Proofs.Program.Extraction
import OutputThreading.Proofs.Program.Output

/-!
# Programs with the same live statements

Two statements are alike if they mark the same part of a block, print the same, return in the same way
and make the same calls.  Idle statements take no part in the output: two source texts whose live
statements are alike describe templates with the same names, signatures and calls, and threading them
appends the same output (`Text.Resembles.outputs_eq`).
-/

namespace OutputThreading

/-! ## Statements that are alike -/

namespace Statement

/-- The statements mark, print, return and call the same. -/
structure Alike (first second : Statement) : Prop where
  /-- The statements are the same marker. -/
  marker_eq : first.marker? = second.marker?
  /-- The statements start the definition of the same template. -/
  definedName_eq : first.definedName? = second.definedName?
  /-- The statements print the same expression. -/
  printed_eq : first.print?.map Print.expression = second.print?.map Print.expression
  /-- Both statements return a value, both return none, or neither returns. -/
  valued_eq : first.return?.map Return.isValued = second.return?.map Return.isValued
  /-- The statements make the same calls. -/
  calls_eq :
    (Call.form.phrases first.interior).map Call.normalized =
      (Call.form.phrases second.interior).map Call.normalized

namespace Alike

variable {first second : Statement}

theorem refl (statement : Statement) : statement.Alike statement :=
  ⟨rfl, rfl, rfl, rfl, rfl⟩

theorem iff_and (first second : Statement) :
    (first.marker? = second.marker? ∧ first.definedName? = second.definedName? ∧
      first.print?.map Print.expression = second.print?.map Print.expression ∧
      first.return?.map Return.isValued = second.return?.map Return.isValued ∧
      (Call.form.phrases first.interior).map Call.normalized =
        (Call.form.phrases second.interior).map Call.normalized) ↔ first.Alike second :=
  ⟨fun ⟨marker, name, printed, valued, calls⟩ => ⟨marker, name, printed, valued, calls⟩,
    fun alike => ⟨alike.marker_eq, alike.definedName_eq, alike.printed_eq, alike.valued_eq,
      alike.calls_eq⟩⟩

instance (first second : Statement) : Decidable (first.Alike second) :=
  decidable_of_iff _ (iff_and first second)

theorem callees_eq (alike : first.Alike second) : first.callees = second.callees := by
  have names (statement : Statement) : statement.callees =
      ((Call.form.phrases statement.interior).map Call.normalized).map Call.callee := by
    rw [callees, List.map_map]
    rfl
  rw [names, names, alike.calls_eq]

theorem isIdle_iff (alike : first.Alike second) : first.IsIdle ↔ second.IsIdle := by
  have printed : first.print? = none ↔ second.print? = none := by
    rw [← Option.map_eq_none_iff (f := Print.expression), alike.printed_eq,
      Option.map_eq_none_iff]
  have returned : first.return? = none ↔ second.return? = none := by
    rw [← Option.map_eq_none_iff (f := Return.isValued), alike.valued_eq, Option.map_eq_none_iff]
  rw [IsIdle, IsIdle, printed, returned, alike.marker_eq, alike.callees_eq]

end Alike

theorem forall₂_alike_live
    {first second : List Statement}
    (alike : List.Forall₂ Alike first second) :
    List.Forall₂ Alike (live first) (live second) := by
  refine List.rel_filter ?_ alike
  intro left right same
  simp only [same.isIdle_iff]

/-- What statements that are alike have in common, lists of them have in common. -/
theorem flatMap_eq_of_forall₂_alike
    {β : Type}
    {f : Statement → List β}
    (same : ∀ left right : Statement, left.Alike right → f left = f right)
    {first second : List Statement}
    (alike : List.Forall₂ Alike first second) :
    first.flatMap f = second.flatMap f := by
  induction alike with
  | nil => rfl
  | cons alike _ inductionHypothesis =>
      rw [List.flatMap_cons, List.flatMap_cons, same _ _ alike, inductionHypothesis]

/-- Blocks end at statements that are alike. -/
theorem exists_takeBlock?_of_forall₂_alike
    {depth : Nat}
    {first second inside behind : List Statement}
    (alike : List.Forall₂ Alike first second)
    (taken : takeBlock? depth first = some (inside, behind)) :
    ∃ inside' behind', takeBlock? depth second = some (inside', behind') ∧
      List.Forall₂ Alike inside inside' ∧ List.Forall₂ Alike behind behind' := by
  induction alike generalizing depth inside with
  | nil => cases taken
  | @cons left right lefts rights same others inductionHypothesis =>
      have after_eq : left.depthAfter? depth = right.depthAfter? depth := by
        unfold depthAfter?
        rw [same.marker_eq]
      cases after : left.depthAfter? depth with
      | none =>
          rw [takeBlock?_cons_of_eq_none after] at taken
          obtain ⟨rfl, rfl⟩ := Prod.mk.inj (Option.some.inj taken)
          rw [after_eq] at after
          exact ⟨_, _, takeBlock?_cons_of_eq_none after rights, .cons same .nil, others⟩
      | some next =>
          rw [takeBlock?_cons_of_eq_some after] at taken
          obtain ⟨⟨part, rest⟩, found, equal⟩ := Option.map_eq_some_iff.mp taken
          obtain ⟨rfl, rfl⟩ := Prod.mk.inj equal
          obtain ⟨part', rest', found', partAlike, restAlike⟩ := inductionHypothesis found
          rw [after_eq] at after
          refine ⟨right :: part', rest', ?_, .cons same partAlike, restAlike⟩
          rw [takeBlock?_cons_of_eq_some after, found']
          rfl

/-- Extraction from statements that are alike gives statements that are alike. -/
theorem exists_extract?_of_forall₂_alike
    {first second main : List Statement}
    {entries : List (Text × List Statement)}
    (alike : List.Forall₂ Alike first second)
    (extracted : extract? first = some (entries, main)) :
    ∃ entries' main', extract? second = some (entries', main') ∧
      List.Forall₂ (fun left right => left.1 = right.1 ∧ List.Forall₂ Alike left.2 right.2)
        entries entries' ∧
      List.Forall₂ Alike main main' := by
  fun_induction extract? first generalizing second entries main with
  | case1 =>
      cases alike
      obtain ⟨rfl, rfl⟩ := Prod.mk.inj (Option.some.inj extracted)
      exact ⟨[], [], by rw [extract?], .nil, .nil⟩
  | case2 statement statements unnamed inductionHypothesis =>
      obtain ⟨⟨parts, rest⟩, found, equal⟩ := Option.map_eq_some_iff.mp extracted
      obtain ⟨rfl, rfl⟩ := Prod.mk.inj equal
      cases alike with
      | @cons _ other _ others same behind =>
          obtain ⟨entries', main', found', entriesAlike, mainAlike⟩ :=
            inductionHypothesis behind found
          rw [same.definedName_eq] at unnamed
          refine ⟨entries', other :: main', ?_, entriesAlike, .cons same mainAlike⟩
          rw [extract?_cons_of_eq_none unnamed, found']
          rfl
  | case3 => cases extracted
  | case4 statement statements name named inside behind taken inductionHypothesis =>
      obtain ⟨⟨parts, rest⟩, found, equal⟩ := Option.map_eq_some_iff.mp extracted
      obtain ⟨rfl, rfl⟩ := Prod.mk.inj equal
      cases alike with
      | @cons _ other _ others same later =>
          obtain ⟨inside', behind', taken', insideAlike, behindAlike⟩ :=
            exists_takeBlock?_of_forall₂_alike later taken
          obtain ⟨entries', main', found', entriesAlike, mainAlike⟩ :=
            inductionHypothesis behindAlike found
          rw [same.definedName_eq] at named
          refine ⟨(name, other :: inside') :: entries', main', ?_,
            .cons ⟨rfl, .cons same insideAlike⟩ entriesAlike, mainAlike⟩
          rw [extract?_cons_of_eq_some named taken', found']
          rfl

end Statement

/-! ## What shows in the live statements -/

/-- The live statements of the texts are alike. -/
def Text.Resembles (first second : Text) : Prop :=
  List.Forall₂ Statement.Alike (Statement.live (Statement.form.phrases first))
    (Statement.live (Statement.form.phrases second))

/-- What idle statements lack and statements that are alike have in common, texts with such statements
have in common. -/
theorem Text.Resembles.flatMap_eq
    {first second : Text}
    (resembles : first.Resembles second)
    {β : Type}
    {f : Statement → List β}
    (silent : ∀ statement : Statement, statement.IsIdle → f statement = [])
    (same : ∀ left right : Statement, left.Alike right → f left = f right) :
    (Statement.form.phrases first).flatMap f = (Statement.form.phrases second).flatMap f := by
  rw [← Statement.flatMap_live silent, Statement.flatMap_eq_of_forall₂_alike same resembles,
    Statement.flatMap_live silent]

theorem Text.Resembles.callees_eq {first second : Text} (resembles : first.Resembles second) :
    first.callees = second.callees :=
  resembles.flatMap_eq (fun _ idle => idle.2.2.2) fun _ _ alike => alike.callees_eq

/-- The phrases of one kind in a text, each seen in one way. -/
theorem Form.IsKind.map_phrases_eq_flatMap
    {α β : Type}
    {form : Form α}
    {kind? : Statement → Option α}
    (isKind : form.IsKind kind?)
    (view : α → β)
    {text : Text}
    (wellDelimited : text.WellDelimited) :
    (form.phrases text).map view =
      (Statement.form.phrases text).flatMap fun statement =>
        ((kind? statement).map view).toList := by
  obtain ⟨pieces, flat, rfl⟩ := wellDelimited
  rw [isKind.phrases_join (Statement.delimited_of_isFlatPiece flat),
    Statement.phrases_join_of_isFlatPiece flat, List.map_filterMap,
    List.filterMap_eq_flatMap_toList]

theorem Signature.ofText_eq_of_resembles
    {first second : Text}
    (wellDelimitedFirst : first.WellDelimited)
    (wellDelimitedSecond : second.WellDelimited)
    (resembles : first.Resembles second) :
    ofText first = ofText second := by
  have prints : (Print.form.phrases first).map Print.expression =
      (Print.form.phrases second).map Print.expression := by
    rw [Print.form_isKind.map_phrases_eq_flatMap _ wellDelimitedFirst,
      Print.form_isKind.map_phrases_eq_flatMap _ wellDelimitedSecond]
    refine resembles.flatMap_eq (fun statement idle => ?_) fun left right alike => ?_
    · rw [idle.1]
      rfl
    · rw [alike.printed_eq]
  have returns : (Return.form.phrases first).map Return.isValued =
      (Return.form.phrases second).map Return.isValued := by
    rw [Return.form_isKind.map_phrases_eq_flatMap _ wellDelimitedFirst,
      Return.form_isKind.map_phrases_eq_flatMap _ wellDelimitedSecond]
    refine resembles.flatMap_eq (fun statement idle => ?_) fun left right alike => ?_
    · rw [idle.2.1]
      rfl
    · rw [alike.valued_eq]
  have shown (text : Text) : ofText text =
      { output := if ((Print.form.phrases text).map Print.expression).isEmpty then .pure
          else .producing
        returns := if ((Return.form.phrases text).map Return.isValued).any id then .valued
          else .bare } := by
    rw [ofText, Form.occursIn, List.any_map, List.isEmpty_map]
    cases (Print.form.phrases text).isEmpty <;> rfl
  rw [shown, shown, prints, returns]

namespace ThreadingContext

variable {context : ThreadingContext}

/-- The output of calls, when the templates of `earlier` were called before. -/
def outputsFrom (context : ThreadingContext) (earlier : List Text) : List Call → List Text
  | [] => []
  | call :: calls =>
      (context.callOutput? call (earlier.count call.callee)).toList ++
        context.outputsFrom (call.callee :: earlier) calls

theorem callOutputs_eq_outputsFrom (expression : Text) :
    context.callOutputs expression = context.outputsFrom [] (Call.form.phrases expression) := by
  rw [callOutputs, ← Call.number_nil_eq_numbered, Form.phrases]
  generalize ([] : List Text) = earlier
  generalize Call.form.split expression = pieces
  induction pieces generalizing earlier with
  | nil => rfl
  | cons piece pieces inductionHypothesis =>
      cases piece with
      | char c => exact inductionHypothesis earlier
      | phrase call =>
          rw [Call.number, List.filterMap_cons_some (Piece.phrase?_phrase _),
            List.filterMap_cons_some (Piece.phrase?_phrase call), outputsFrom,
            ← inductionHypothesis]
          simp only [List.filterMap_cons]
          cases context.callOutput? call (earlier.count call.callee) <;> rfl

/-- The white space in front of the name of a template has no say in the output of a call. -/
theorem outputsFrom_map_normalized (earlier : List Text) (calls : List Call) :
    context.outputsFrom earlier (calls.map Call.normalized) = context.outputsFrom earlier calls := by
  induction calls generalizing earlier with
  | nil => rfl
  | cons call calls inductionHypothesis =>
      rw [List.map_cons, outputsFrom, outputsFrom, inductionHypothesis]
      rfl

theorem callOutputs_eq_of_alike
    {first second : Statement}
    (alike : first.Alike second) :
    context.callOutputs first.interior = context.callOutputs second.interior := by
  rw [callOutputs_eq_outputsFrom, callOutputs_eq_outputsFrom, ← outputsFrom_map_normalized,
    alike.calls_eq, outputsFrom_map_normalized]

theorem printed?_eq_of_alike
    {first second : Statement}
    (alike : first.Alike second) :
    context.printed? first = context.printed? second := by
  have shown (statement : Statement) : context.printed? statement =
      (statement.print?.map Print.expression).bind fun expression =>
        if context.isLoneOutput expression then none else some (context.filled expression) := by
    rw [printed?, Option.bind_map]
    rfl
  rw [shown, shown, alike.printed_eq]

theorem outputs_eq_of_alike
    {first second : Statement}
    (alike : first.Alike second) :
    context.outputs first = context.outputs second := by
  rw [outputs, outputs, callOutputs_eq_of_alike alike, printed?_eq_of_alike alike]

theorem outputsIn_eq_of_alike
    (signature : Signature)
    {first second : Statement}
    (alike : first.Alike second) :
    context.outputsIn signature first = context.outputsIn signature second := by
  rw [outputsIn, outputsIn, callOutputs_eq_of_alike alike, outputs_eq_of_alike alike]

theorem callOutputs_eq_nil_of_isIdle
    {statement : Statement}
    (idle : statement.IsIdle) :
    context.callOutputs statement.interior = [] := by
  have noCall : Call.form.phrases statement.interior = [] := List.map_eq_nil_iff.mp idle.2.2.2
  rw [callOutputs_eq_outputsFrom, noCall, outputsFrom]

theorem outputs_eq_nil_of_isIdle
    {statement : Statement}
    (idle : statement.IsIdle) :
    context.outputs statement = [] := by
  rw [outputs, callOutputs_eq_nil_of_isIdle idle, printed?, idle.1]
  rfl

theorem outputsIn_eq_nil_of_isIdle
    (signature : Signature)
    {statement : Statement}
    (idle : statement.IsIdle) :
    context.outputsIn signature statement = [] := by
  rw [outputsIn, callOutputs_eq_nil_of_isIdle idle, outputs_eq_nil_of_isIdle idle, ite_self]

end ThreadingContext

/-! ## Agreement of templates -/

/-- The templates have the same name and signature, and their live statements are alike. -/
structure Template.Agrees (first second : Template) : Prop where
  /-- The names are the same. -/
  name_eq : first.name = second.name
  /-- The signatures are the same. -/
  signature_eq : first.signature = second.signature
  /-- The live statements are alike. -/
  resembles : first.text.Resembles second.text

/-- Templates that present entries with live statements that are alike agree. -/
theorem Template.Presents.agrees
    {first second : Template}
    {left right : Text × List Statement}
    (presentsFirst : first.Presents left)
    (presentsSecond : second.Presents right)
    (name_eq : left.1 = right.1)
    (alike : List.Forall₂ Statement.Alike (Statement.live left.2) (Statement.live right.2)) :
    first.Agrees second := by
  rw [← presentsFirst.phrases_eq, ← presentsSecond.phrases_eq] at alike
  refine ⟨?_, ?_, alike⟩
  · rw [presentsFirst.name_eq, presentsSecond.name_eq, name_eq]
  · rw [presentsFirst.signature_eq, presentsSecond.signature_eq]
    exact Signature.ofText_eq_of_resembles presentsFirst.wellDelimited
      presentsSecond.wellDelimited alike

namespace Templates

variable {first second : Templates}

theorem forall₂_agrees_of_presents
    {left right : List (Text × List Statement)}
    (presentsFirst : List.Forall₂ Template.Presents first left)
    (presentsSecond : List.Forall₂ Template.Presents second right)
    (entries : List.Forall₂
      (fun left right => left.1 = right.1 ∧
        List.Forall₂ Statement.Alike (Statement.live left.2) (Statement.live right.2))
      left right) :
    List.Forall₂ Template.Agrees first second := by
  induction presentsFirst generalizing second right with
  | nil =>
      cases entries
      cases presentsSecond
      exact .nil
  | cons presents _ inductionHypothesis =>
      cases entries with
      | cons entry entries =>
          cases presentsSecond with
          | cons presentsOther others =>
              exact .cons (presents.agrees presentsOther entry.1 entry.2)
                (inductionHypothesis others entries)

theorem forall₂_agrees_keepFirst
    (agree : List.Forall₂ Template.Agrees first second) :
    List.Forall₂ Template.Agrees first.keepFirst second.keepFirst := by
  induction agree with
  | nil => exact .nil
  | cons agrees _ inductionHypothesis =>
      refine .cons agrees (List.rel_filter ?_ inductionHypothesis)
      intro left right others
      simp only [others.name_eq, agrees.name_eq]

theorem forall₂_agrees_producing
    (agree : List.Forall₂ Template.Agrees first second) :
    List.Forall₂ Template.Agrees first.producing second.producing := by
  refine List.rel_filter ?_ agree
  intro left right agrees
  simp only [agrees.signature_eq]

theorem forall₂_agrees_pure
    (agree : List.Forall₂ Template.Agrees first second) :
    List.Forall₂ Template.Agrees first.pure second.pure := by
  refine List.rel_filter ?_ agree
  intro left right agrees
  simp only [agrees.signature_eq]

/-- What is the same in templates that agree is the same in lists of them. -/
theorem map_eq_of_forall₂_agrees
    {β : Type}
    {f : Template → β}
    (same : ∀ left right : Template, left.Agrees right → f left = f right)
    (agree : List.Forall₂ Template.Agrees first second) :
    first.map f = second.map f := by
  induction agree with
  | nil => rfl
  | cons agrees _ inductionHypothesis =>
      rw [List.map_cons, List.map_cons, same _ _ agrees, inductionHypothesis]

theorem forall₂_agrees_promote
    (agree : List.Forall₂ Template.Agrees first second) :
    List.Forall₂ Template.Agrees first.promote second.promote := by
  have graph : first.callGraph = second.callGraph := by
    refine map_eq_of_forall₂_agrees (fun left right agrees => ?_) agree
    rw [agrees.name_eq, agrees.resembles.callees_eq]
  have marked : first.producing.map Template.name = second.producing.map Template.name :=
    map_eq_of_forall₂_agrees (fun _ _ agrees => agrees.name_eq) (forall₂_agrees_producing agree)
  rw [promote, promote, graph, marked]
  refine List.rel_map ?_ agree
  intro left right agrees
  simp only [agrees.name_eq]
  split
  · exact ⟨rfl, by rw [agrees.signature_eq], agrees.resembles⟩
  · exact agrees

theorem signatures_eq_of_forall₂_agrees
    (agree : List.Forall₂ Template.Agrees first second) :
    first.signatures = second.signatures := by
  funext name
  rw [signatures, signatures, find?, find?]
  induction agree with
  | nil => rfl
  | cons agrees _ inductionHypothesis =>
      rw [List.find?_cons, List.find?_cons, agrees.name_eq]
      split
      · exact congrArg some agrees.signature_eq
      · exact inductionHypothesis

end Templates

/-! ## Extraction from texts that agree -/

namespace Program

/-- An extracted program presents what extraction finds among the statements. -/
theorem exists_extract?_of_ofText
    {text : Text}
    {program : Program}
    (wellDelimited : text.WellDelimited)
    (heads : ∀ statement ∈ Statement.form.phrases text, statement.ClosesQuote)
    (extracted : ofText text = .ok program) :
    ∃ (templates : Templates) (entries : List (Text × List Statement)),
      program.templates = templates.keepFirst.promote ∧
      Statement.extract? (Statement.form.phrases text) =
        some (entries, Statement.form.phrases program.main) ∧
      List.Forall₂ Template.Presents templates entries := by
  obtain ⟨pieces, flat, rfl⟩ := wellDelimited
  rw [Statement.phrases_join_of_isFlatPiece flat] at heads ⊢
  obtain ⟨taken, found, equal⟩ := bind_eq_ok_iff.mp extracted
  obtain ⟨entries, main, entries_eq, presents, flatMain, main_eq⟩ :=
    presents_of_takeDefinitions flat heads found
  rw [← pure_eq_ok_iff.mp equal]
  refine ⟨taken.templates, entries, rfl, ?_, presents⟩
  change _ = some (entries, Statement.form.phrases taken.main)
  rw [entries_eq, main_eq, Statement.phrases_join_of_isFlatPiece flatMain]

/-- Texts that resemble each other describe programs that agree. -/
theorem forall₂_agrees_of_ofText
    {first second : Text}
    (wellDelimitedFirst : first.WellDelimited)
    (wellDelimitedSecond : second.WellDelimited)
    (headsFirst : ∀ statement ∈ Statement.form.phrases first, statement.ClosesQuote)
    (headsSecond : ∀ statement ∈ Statement.form.phrases second, statement.ClosesQuote)
    (resembles : first.Resembles second)
    {left right : Program}
    (extractedFirst : ofText first = .ok left)
    (extractedSecond : ofText second = .ok right) :
    List.Forall₂ Template.Agrees left.templates right.templates ∧
      left.main.Resembles right.main := by
  obtain ⟨templates, entries, templates_eq, entries_eq, presents⟩ :=
    exists_extract?_of_ofText wellDelimitedFirst headsFirst extractedFirst
  obtain ⟨others, otherEntries, others_eq, otherEntries_eq, otherPresents⟩ :=
    exists_extract?_of_ofText wellDelimitedSecond headsSecond extractedSecond
  have found := Statement.extract?_live (Statement.form.phrases first)
  rw [entries_eq, Option.map_some] at found
  have otherFound := Statement.extract?_live (Statement.form.phrases second)
  rw [otherEntries_eq, Option.map_some] at otherFound
  obtain ⟨entries', main', alsoFound, entriesAlike, mainAlike⟩ :=
    Statement.exists_extract?_of_forall₂_alike resembles found
  rw [otherFound] at alsoFound
  obtain ⟨rfl, rfl⟩ := Prod.mk.inj (Option.some.inj alsoFound)
  refine ⟨?_, mainAlike⟩
  rw [templates_eq, others_eq]
  apply Templates.forall₂_agrees_promote
  apply Templates.forall₂_agrees_keepFirst
  rw [List.forall₂_map_left_iff, List.forall₂_map_right_iff] at entriesAlike
  exact Templates.forall₂_agrees_of_presents presents otherPresents entriesAlike

end Program

/-! ## Output of texts that agree -/

/-- Programs that agree have the same output. -/
theorem Program.outputs_eq_of_agrees
    (names : NameSupply)
    {left right : Program}
    (agree : List.Forall₂ Template.Agrees left.templates right.templates)
    (main : left.main.Resembles right.main) :
    left.outputs names = right.outputs names := by
  let context : ThreadingContext := ⟨names, right.templates.signatures⟩
  have listed := List.rel_append (Templates.forall₂_agrees_producing agree)
    (Templates.forall₂_agrees_pure agree)
  have templateOutputs := Templates.map_eq_of_forall₂_agrees (f := fun template =>
      (Statement.form.phrases template.text).flatMap (context.outputsIn template.signature))
    (fun first second agrees => by
      rw [agrees.signature_eq]
      exact agrees.resembles.flatMap_eq
        (fun _ => ThreadingContext.outputsIn_eq_nil_of_isIdle _)
        fun _ _ => ThreadingContext.outputsIn_eq_of_alike _) listed
  have mainOutputs : (Statement.form.phrases left.main).flatMap context.outputs =
      (Statement.form.phrases right.main).flatMap context.outputs :=
    main.flatMap_eq (fun _ => ThreadingContext.outputs_eq_nil_of_isIdle)
      fun _ _ => ThreadingContext.outputs_eq_of_alike
  unfold outputs
  rw [Templates.signatures_eq_of_forall₂_agrees agree]
  exact congrArg₂ (· ++ ·) (congrArg List.flatten templateOutputs) mainOutputs

/-- Texts that resemble each other describe programs with the same output. -/
theorem Text.Resembles.outputs_eq
    {first second : Text}
    (resembles : first.Resembles second)
    (wellDelimitedFirst : first.WellDelimited)
    (wellDelimitedSecond : second.WellDelimited)
    (headsFirst : ∀ statement ∈ Statement.form.phrases first, statement.ClosesQuote)
    (headsSecond : ∀ statement ∈ Statement.form.phrases second, statement.ClosesQuote)
    {left right : List Text}
    (outputsFirst : first.outputs = .ok left)
    (outputsSecond : second.outputs = .ok right) :
    left = right := by
  obtain ⟨names, made, outputsFirst⟩ := bind_eq_ok_iff.mp outputsFirst
  obtain ⟨leftProgram, extractedFirst, leftOutputs⟩ := bind_eq_ok_iff.mp outputsFirst
  obtain ⟨sameNames, madeAgain, outputsSecond⟩ := bind_eq_ok_iff.mp outputsSecond
  obtain ⟨rightProgram, extractedSecond, rightOutputs⟩ := bind_eq_ok_iff.mp outputsSecond
  obtain ⟨agree, main⟩ := Program.forall₂_agrees_of_ofText wellDelimitedFirst wellDelimitedSecond
    headsFirst headsSecond resembles extractedFirst extractedSecond
  rw [← pure_eq_ok_iff.mp leftOutputs, ← pure_eq_ok_iff.mp rightOutputs,
    NameSupply.ofSource_reserved_eq_ok made, NameSupply.ofSource_reserved_eq_ok madeAgain]
  exact Program.outputs_eq_of_agrees _ agree main

end OutputThreading
