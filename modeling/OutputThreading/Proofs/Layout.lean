import Mathlib.Logic.Relation
import OutputThreading.Layout
import OutputThreading.Proofs.Block.Matching
import OutputThreading.Proofs.Text.Space

/-!
# Compacting removes layout

Compacting a text is a run of single steps, each of which closes one seam or cuts off white space at
the end (`Text.compact_tightens`).  A step adds and removes no statement and no marker, because what
is behind closing braces has no say in the statements in front, nor what is behind opening braces in
the markers.  A single pass from left to right closes every seam: it leaves no pair of closing braces
that was not there before, so no new seam appears (`Text.isTight_tighten`).
-/

namespace OutputThreading

/-! ## Seams in a text -/

namespace Seam

/-- Only white space is between the statements. -/
def IsBlank (seam : Seam) : Prop :=
  ∀ c ∈ seam.spacing, Character.isSpace c = true

theorem text_append (seam : Seam) (rest : Text) :
    seam.text ++ rest = '}' :: '}' :: (seam.spacing ++ '{' :: '{' :: rest) := by
  simp [text, Statement.closing, Statement.opening]

/-- A seam is read where it stands. -/
theorem read?_eq_some_iff {text rest : Text} {seam : Seam} :
    read? text = some (seam, rest) ↔ text = seam.text ++ rest ∧ seam.IsBlank := by
  constructor
  · intro found
    refine ⟨eq_text_append_of_read? found, fun c member => ?_⟩
    simp only [read?, Option.bind_eq_bind, Option.bind_eq_some_iff] at found
    obtain ⟨inside, _, _, _, found⟩ := found
    obtain ⟨rfl, _⟩ := Prod.mk.inj (Option.some.inj found)
    exact Text.isSpace_of_mem_leadingSpace member
  · rintro ⟨rfl, blank⟩
    have solid : Character.isSpace '{' = false := by decide
    rw [text_append]
    simp [read?, Statement.closing, Statement.opening, Text.trimStart_append_solid blank solid,
      Text.leadingSpace_append_solid blank solid]

theorem isBlank_of_mem_split
    {text : Text}
    {seam : Seam}
    (member : .phrase seam ∈ form.split text) :
    seam.IsBlank := by
  obtain ⟨front, behind, split_eq⟩ := List.append_of_mem member
  have found := form.read?_eq_some_of_split_eq_cons (form.split_join_of_split_eq_append split_eq)
  exact (read?_eq_some_iff.mp found).2

end Seam

/-! ## One step of compaction -/

namespace Text

/-- A step of compaction closes a seam or cuts off white space at the end. -/
inductive Tightens : Text → Text → Prop where
  /-- A seam is closed. -/
  | seam (before behind : Text) {seam : Seam} (blank : seam.IsBlank) :
      Tightens (before ++ (seam.text ++ behind)) (before ++ (Seam.tight.text ++ behind))
  /-- White space at the end is cut off. -/
  | ending (front : Text) {spacing : Text} (blank : ∀ c ∈ spacing, Character.isSpace c = true) :
      Tightens (front ++ spacing) front

/-- The characters of the text that are no white space. -/
def solid (text : Text) : Text :=
  text.filter fun c => !Character.isSpace c

@[simp] theorem solid_append (front rest : Text) :
    (front ++ rest).solid = front.solid ++ rest.solid := by
  simp [solid]

theorem solid_of_isSpace
    {spacing : Text}
    (blank : ∀ c ∈ spacing, Character.isSpace c = true) :
    spacing.solid = [] := by
  simpa [solid] using blank

end Text

/-- The statements on both sides of a seam are found without looking at the white space in it. -/
theorem Statement.phrases_append_seam
    {seam : Seam}
    (blank : seam.IsBlank)
    (before behind : Text) :
    form.phrases (before ++ (seam.text ++ behind)) =
      form.phrases (before ++ closing) ++ form.phrases (opening ++ behind) := by
  have spacing : form.Skips seam.spacing (opening ++ behind) :=
    form_isKind.isBraced.skips_of_notMem (Text.brace_notMem_of_isSpace blank).1 _
  have parts : before ++ (seam.text ++ behind) =
      before ++ closing ++ (seam.spacing ++ (opening ++ behind)) := by
    simp [Seam.text]
  rw [parts, form.phrases_append_of_split_append (split_append_closing before _),
    form.phrases_append_of_skips spacing]

/-- The markers on both sides of a seam are found without looking at the white space in it. -/
theorem Marker.phrases_append_seam
    {seam : Seam}
    (blank : seam.IsBlank)
    (before behind : Text) :
    form.phrases (before ++ (seam.text ++ behind)) =
      form.phrases (before ++ Statement.closing) ++
        form.phrases (Statement.opening ++ behind) := by
  have spacing : form.Skips seam.spacing [] :=
    form_isBraced.skips_of_notMem (Text.brace_notMem_of_isSpace blank).1 []
  have parts : before ++ (seam.text ++ behind) =
      before ++ Statement.closing ++ seam.spacing ++ (Statement.opening ++ behind) := by
    simp [Seam.text]
  rw [parts, form.phrases_append_of_split_append (split_append_opening _ behind),
    form.phrases_append_of_split_append (split_append_of_isSpace blank _), spacing.phrases_eq_nil,
    List.append_nil]

namespace Text.Tightens

variable {text other : Text}

/-- A step removes only white space. -/
theorem solid_eq (step : Tightens text other) : other.solid = text.solid := by
  cases step with
  | seam before behind blank =>
      simp only [Seam.text, Seam.tight, solid_append, solid_of_isSpace blank]
      rfl
  | ending front blank => simp [solid_of_isSpace blank]

/-- A step adds and removes no statement. -/
theorem statements_eq (step : Tightens text other) :
    Statement.form.phrases other = Statement.form.phrases text := by
  cases step with
  | seam before behind blank =>
      have closed : Seam.tight.IsBlank := by simp [Seam.IsBlank, Seam.tight]
      rw [Statement.phrases_append_seam blank, Statement.phrases_append_seam closed]
  | @ending front spacing blank =>
      have noBraces := brace_notMem_of_isSpace blank
      have skips := Statement.form_isKind.isBraced.skips_of_notMem noBraces.1 []
      have apart := Statement.split_append_of_notMem noBraces.2 other
      rw [Statement.form.phrases_append_of_split_append apart, skips.phrases_eq_nil, List.append_nil]

/-- A step adds and removes no marker. -/
theorem markers_eq (step : Tightens text other) :
    Marker.form.phrases other = Marker.form.phrases text := by
  cases step with
  | seam before behind blank =>
      have closed : Seam.tight.IsBlank := by simp [Seam.IsBlank, Seam.tight]
      rw [Marker.phrases_append_seam blank, Marker.phrases_append_seam closed]
  | @ending front spacing blank =>
      have noBraces := brace_notMem_of_isSpace blank
      have skips := Marker.form_isBraced.skips_of_notMem noBraces.1 []
      have apart := Marker.split_append_of_isSpace blank other
      rw [Marker.form.phrases_append_of_split_append apart, skips.phrases_eq_nil, List.append_nil]

end Text.Tightens

/-! ## Compaction as a run of steps -/

namespace Text

open Relation (ReflTransGen)

/-- Close every seam of the text. -/
def tighten (text : Text) : Text :=
  Seam.form.replace (fun _ => Seam.tight.text) text

theorem compact_eq (text : Text) : text.compact = text.tighten.trimEnd := rfl

theorem join_tightens
    {pieces : List (Piece Seam)}
    (blank : ∀ seam, .phrase seam ∈ pieces → seam.IsBlank)
    (front : Text) :
    ReflTransGen Tightens (front ++ Seam.form.join pieces)
      (front ++ pieces.flatMap (Piece.text fun _ => Seam.tight.text)) := by
  induction pieces generalizing front with
  | nil => exact .refl
  | cons piece pieces inductionHypothesis =>
      have others := inductionHypothesis fun seam member => blank seam (List.mem_cons_of_mem _ member)
      cases piece with
      | char c => simpa using others (front ++ [c])
      | phrase seam =>
          have step := Tightens.seam front (Seam.form.join pieces) (blank seam List.mem_cons_self)
          refine .head step ?_
          simpa using others (front ++ Seam.tight.text)

/-- Compaction takes one step after the other. -/
theorem compact_tightens (text : Text) : ReflTransGen Tightens text text.compact := by
  have closed : ReflTransGen Tightens text text.tighten := by
    have blank (seam : Seam) (member : .phrase seam ∈ Seam.form.split text) : seam.IsBlank :=
      Seam.isBlank_of_mem_split member
    have steps := join_tightens blank []
    rwa [Form.join_split] at steps
  refine closed.tail ?_
  have blank (c : Char) (member : c ∈ text.tighten.trailingSpace) : Character.isSpace c = true :=
    isSpace_of_mem_trailingSpace member
  have step := Tightens.ending text.tighten.trimEnd blank
  rwa [trimEnd_append_trailingSpace] at step

/-- What no step changes is not changed by compaction. -/
theorem compact_keeps
    {α : Type}
    {view : Text → α}
    (kept : ∀ {text other : Text}, Tightens text other → view other = view text)
    (text : Text) :
    view text.compact = view text := by
  have keeps {other : Text} (steps : ReflTransGen Tightens text other) : view other = view text := by
    induction steps with
    | refl => rfl
    | tail _ step inductionHypothesis => exact (kept step).trans inductionHypothesis
  exact keeps text.compact_tightens

/-! ## Texts without open seams -/

/-- Every seam of the text is closed. -/
def IsTight (text : Text) : Prop :=
  ∀ seam : Seam, seam.IsBlank → seam.text <:+: text → seam = Seam.tight

theorem IsTight.of_infix
    {text part : Text}
    (tight : text.IsTight)
    (inside : part <:+: text) :
    part.IsTight :=
  fun seam blank within => tight seam blank (within.trans inside)

theorem tighten_of_read?
    {text rest : Text}
    {seam : Seam}
    (found : Seam.read? text = some (seam, rest)) :
    text.tighten = '}' :: '}' :: '{' :: '{' :: rest.tighten := by
  rw [tighten, Form.replace, Seam.form.split_of_read? found]
  rfl

theorem tighten_cons_of_read?_eq_none
    {c : Char}
    {tail : Text}
    (notFound : Seam.read? (c :: tail) = none) :
    tighten (c :: tail) = c :: tail.tighten := by
  simp [tighten, Form.replace, Seam.form.split_cons_of_read?_eq_none notFound]

/-- A text starts alike when its seams are closed, up to the first pair of closing braces. -/
theorem prefix_of_prefix_tighten
    {pattern text : Text}
    (apart : ¬Statement.closing <:+: pattern ++ ['}'])
    (leading : pattern <+: text.tighten) :
    pattern <+: text := by
  fun_induction Seam.form.split text generalizing pattern with
  | case1 => simpa [tighten, Form.replace] using leading
  | case2 c tail seam rest found _ =>
      rw [tighten_of_read? found] at leading
      cases pattern with
      | nil => exact List.nil_prefix
      | cons p pattern =>
          obtain ⟨rfl, others⟩ := List.cons_prefix_cons.mp leading
          cases pattern with
          | nil => exact absurd (by decide) apart
          | cons q pattern =>
              obtain ⟨rfl, _⟩ := List.cons_prefix_cons.mp others
              exact absurd ⟨[], pattern ++ ['}'], rfl⟩ apart
  | case3 c tail notFound inductionHypothesis =>
      rw [tighten_cons_of_read?_eq_none notFound] at leading
      cases pattern with
      | nil => exact List.nil_prefix
      | cons p pattern =>
          obtain ⟨rfl, others⟩ := List.cons_prefix_cons.mp leading
          have apartBehind : ¬Statement.closing <:+: pattern ++ ['}'] :=
            fun inside => apart (List.infix_cons inside)
          exact List.cons_prefix_cons.mpr ⟨rfl, inductionHypothesis apartBehind others⟩

/-- The end of an open seam holds no pair of closing braces. -/
theorem not_closing_infix_of_isBlank
    {seam : Seam}
    (blank : seam.IsBlank) :
    ¬Statement.closing <:+: '}' :: (seam.spacing ++ Statement.opening) ++ ['}'] := by
  have apart : ∀ c ∈ seam.spacing ++ Statement.opening, c ∉ Statement.closing := by
    intro c member
    have noBrace : '}' ∉ seam.spacing ++ Statement.opening := by
      simp [(brace_notMem_of_isSpace blank).2, Statement.opening]
    simp only [Statement.closing, List.mem_cons, List.not_mem_nil, or_false, or_self]
    rintro rfl
    exact noBrace member
  have parts : '}' :: (seam.spacing ++ Statement.opening) ++ ['}'] =
      ['}'] ++ (seam.spacing ++ Statement.opening ++ ['}']) := by
    simp
  rw [parts, infix_append_append_iff Statement.closing_ne_nil apart (by simp [Statement.opening])]
  decide

theorem eq_tight_of_text_prefix
    {seam : Seam}
    {rest : Text}
    (blank : seam.IsBlank)
    (leading : seam.text <+: '}' :: '}' :: '{' :: '{' :: rest) :
    seam = Seam.tight := by
  obtain ⟨behind, whole⟩ := leading
  rw [Seam.text_append] at whole
  obtain ⟨spacing⟩ := seam
  cases spacing with
  | nil => rfl
  | cons c spacing =>
      obtain ⟨rfl, _⟩ := List.cons.inj (List.cons.inj (List.cons.inj whole).2).2
      exact absurd (blank '{' List.mem_cons_self) (by decide)

/-- Closing the seams from left to right leaves no seam open. -/
theorem isTight_tighten (text : Text) : text.tighten.IsTight := by
  fun_induction Seam.form.split text with
  | case1 =>
      intro seam _ inside
      have empty : tighten [] = [] := by simp [tighten, Form.replace]
      rw [empty, List.infix_nil] at inside
      exact absurd inside (Seam.form.write_ne_nil seam)
  | case2 c tail seam rest found inductionHypothesis =>
      intro other blank inside
      have closed : Statement.closing <+: other.text :=
        ⟨other.spacing ++ Statement.opening, (List.append_assoc ..).symm⟩
      simp only [tighten_of_read? found, List.infix_cons_iff] at inside
      rcases inside with leading | leading | leading | leading | inside
      · exact eq_tight_of_text_prefix blank leading
      -- closing braces stand only in front of the closed seam
      · exact absurd (closed.trans leading) (by simp [Statement.closing])
      · exact absurd (closed.trans leading) (by simp [Statement.closing])
      · exact absurd (closed.trans leading) (by simp [Statement.closing])
      · exact inductionHypothesis other blank inside
  | case3 c tail notFound inductionHypothesis =>
      rw [tighten_cons_of_read?_eq_none notFound]
      intro seam blank inside
      rcases List.infix_cons_iff.mp inside with ⟨behind, whole⟩ | inside
      · -- the braces and the white space were there before
        rw [Seam.text_append] at whole
        obtain ⟨rfl, tail_eq⟩ := List.cons.inj whole
        have leading : '}' :: (seam.spacing ++ Statement.opening) <+: tighten tail :=
          ⟨behind, by simp [← tail_eq, Statement.opening]⟩
        obtain ⟨rest, rfl⟩ :=
          prefix_of_prefix_tighten (not_closing_infix_of_isBlank blank) leading
        have found : Seam.read? ('}' :: ('}' :: (seam.spacing ++ Statement.opening) ++ rest)) =
            some (seam, rest) :=
          Seam.read?_eq_some_iff.mpr ⟨by simp [Seam.text_append, Statement.opening], blank⟩
        cases notFound.symm.trans found
      · exact inductionHypothesis seam blank inside

/-- A text without open seams is not changed by closing them. -/
theorem IsTight.tighten_eq {text : Text} (tight : text.IsTight) : text.tighten = text := by
  rw [tighten, ← Form.replaceInLine_const]
  refine Seam.form.replaceInLine_eq_self fun seam member _ => ?_
  have member := Form.mem_filterMap_phrase?.mp member
  have inside : seam.text <:+: text := by
    have written := Seam.form.write_infix_join member
    rwa [Form.join_split] at written
  rw [tight seam (Seam.isBlank_of_mem_split member) inside]
  rfl

theorem isTight_compact (text : Text) : text.compact.IsTight := by
  have initial : text.compact <+: text.tighten := trimEnd_prefix text.tighten
  exact text.isTight_tighten.of_infix initial.isInfix

theorem compact_compact (text : Text) : text.compact.compact = text.compact := by
  rw [compact_eq, text.isTight_compact.tighten_eq, compact_eq, trimEnd_trimEnd]

theorem trailingSpace_compact (text : Text) : text.compact.trailingSpace = [] := by
  have parts := text.compact.trimEnd_append_trailingSpace
  rwa [compact_eq, trimEnd_trimEnd, ← compact_eq, List.append_right_eq_self] at parts

/-- Compaction removes only layout, and all of it: no white space is left between statements or at
the end of the text, so compacting again changes nothing, and the text has the same characters
other than white space, the same statements and the same markers as before. -/
theorem compact_removes_layout (text : Text) :
    (∀ before spacing behind : Text, (∀ c ∈ spacing, Character.isSpace c = true) →
      text.compact = before ++ Statement.closing ++ spacing ++ Statement.opening ++ behind →
        spacing = []) ∧
    text.compact.trailingSpace = [] ∧
    text.compact.compact = text.compact ∧
    text.compact.filter (fun c => !Character.isSpace c) =
      text.filter (fun c => !Character.isSpace c) ∧
    Statement.form.phrases text.compact = Statement.form.phrases text ∧
    (Cursor.markers ⟨[], text.compact⟩).map Prod.fst =
      (Cursor.markers ⟨[], text⟩).map Prod.fst := by
  refine ⟨fun before spacing behind blank whole => ?_, text.trailingSpace_compact,
    text.compact_compact, text.compact_keeps Tightens.solid_eq,
    text.compact_keeps Tightens.statements_eq, ?_⟩
  · have inside : (Seam.mk spacing).text <:+: text.compact :=
      ⟨before, behind, by simp [whole, Seam.text]⟩
    exact congrArg Seam.spacing (text.isTight_compact ⟨spacing⟩ blank inside)
  · rw [Cursor.map_fst_markers, Cursor.map_fst_markers]
    exact text.compact_keeps Tightens.markers_eq

end Text
end OutputThreading
