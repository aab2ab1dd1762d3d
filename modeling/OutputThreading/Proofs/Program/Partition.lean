import OutputThreading.Proofs.Block.Nesting
import OutputThreading.Proofs.NameSupply
import OutputThreading.Proofs.Program.Extraction
import OutputThreading.Proofs.Template.Promotion
import OutputThreading.Proofs.Text.Occurrence
import OutputThreading.Proofs.Text.Space

/-!
# Extraction partitions a text

Extraction cuts a text into a front and segments, each of which is one definition, the line break
behind it, and the main text up to the next definition (`Partition`).  Nothing is lost or kept
twice: the definitions make up the templates, of several with one name only the first, and the rest
is the main text (`Program.ofText_partitions`).
-/

namespace OutputThreading

/-! ## Heads of definitions -/

namespace Text

/-- The text starts with the complete head of a definition: the opener, white space, a quoted name,
and closing braces. -/
def StartsDefinition (text name : Text) : Prop :=
  ∃ spacing padding rest : Text,
    text = Keyword.define.opener ++ (spacing ++ '"' :: (name ++ '"' ::
      (padding ++ (Statement.closing ++ rest)))) ∧
    spacing ≠ [] ∧ (∀ c ∈ spacing, Character.isSpace c = true) ∧
    name ≠ [] ∧ '"' ∉ name ∧ ∀ c ∈ padding, Character.isSpace c = true

/-- The complete head of a definition stands somewhere in the text. -/
def HoldsDefinition (text : Text) : Prop :=
  ∃ before behind name, text = before ++ behind ∧ behind.StartsDefinition name

theorem StartsDefinition.append
    {text name : Text}
    (starts : text.StartsDefinition name)
    (more : Text) :
    (text ++ more).StartsDefinition name := by
  obtain ⟨spacing, padding, rest, rfl, conditions⟩ := starts
  exact ⟨spacing, padding, rest ++ more, by simp, conditions⟩

end Text

namespace Program

/-- A name is read behind an opener exactly if the head of a definition is complete there. -/
theorem headName?_eq_some_iff {text name : Text} :
    headName? text = some name ↔ (Keyword.define.opener ++ text).StartsDefinition name := by
  have quote : Character.isSpace '"' = false := by decide
  have brace : Character.isSpace '}' = false := by decide
  simp only [headName?, Option.bind_eq_bind, Option.bind_eq_some_iff, Text.after?_eq_some_iff,
    Option.ite_none_left_eq_some, Option.some.injEq, not_or, Prod.exists,
    Text.breakOn?_singleton_eq_some_iff]
  constructor
  · rintro ⟨behindQuote, trimmed, name, behindName, ⟨rfl, unquoted⟩, rest, closed,
      ⟨spaced, named⟩, rfl⟩
    refine ⟨text.leadingSpace, behindName.leadingSpace, rest, ?_, spaced,
      fun c => Text.isSpace_of_mem_leadingSpace, named, unquoted,
      fun c => Text.isSpace_of_mem_leadingSpace⟩
    rw [← closed, Text.leadingSpace_append_trimStart, List.append_cancel_left_eq]
    rw [List.singleton_append] at trimmed
    rw [← trimmed, Text.leadingSpace_append_trimStart]
  · rintro ⟨spacing, padding, rest, equal, spaced, blank, named, unquoted, padded⟩
    obtain rfl := List.append_cancel_left equal
    refine ⟨_, Text.trimStart_append_solid blank quote _, name, _, ⟨rfl, unquoted⟩, rest, ?_,
      ⟨?_, named⟩, rfl⟩
    · exact Text.trimStart_append_solid padded brace _
    · rwa [Text.leadingSpace_append_solid blank quote]

theorem definedName?_eq_some_iff
    {marker : Marker}
    {pieces : List (Piece Marker)}
    {name : Text} :
    definedName? marker pieces = some name ↔
      marker = .opens .define ∧
        (Marker.form.join (.phrase marker :: pieces)).StartsDefinition name := by
  unfold definedName?
  split
  next => exact headName?_eq_some_iff.trans (by simp; rfl)
  next other =>
    constructor
    · intro found
      cases found
    · rintro ⟨rfl, _⟩
      exact absurd rfl other

end Program

/-- Where the head of a definition starts, its opener is read. -/
theorem Text.StartsDefinition.exists_read?_eq
    {text name : Text}
    (starts : text.StartsDefinition name) :
    ∃ behind, Marker.form.read? text = some (.opens .define, behind) := by
  obtain ⟨spacing, padding, rest, rfl, spaced, blank, _⟩ := starts
  obtain ⟨c, spacing, rfl⟩ := List.exists_cons_of_ne_nil spaced
  refine ⟨_, Marker.read?_eq_some_iff.mpr ⟨rfl, ?_⟩⟩
  have ends := Character.isWord_eq_false_of_isSpace (blank c List.mem_cons_self)
  simp [Marker.endsBefore, Marker.startsOutsideWord, ends]

/-- A definition in two texts in a row stands in the second one or starts in the first one. -/
theorem Text.HoldsDefinition.of_append
    {front text : Text}
    (holds : (front ++ text).HoldsDefinition) :
    text.HoldsDefinition ∨
      ∃ part name, part <:+ front ∧ part ≠ [] ∧ Text.StartsDefinition (part ++ text) name := by
  obtain ⟨before, behind, name, equal, starts⟩ := holds
  rcases List.append_eq_append_iff.mp equal with ⟨passed, rfl, rfl⟩ | ⟨part, rfl, rfl⟩
  · exact .inl ⟨passed, behind, name, rfl, starts⟩
  · cases part with
    | nil => exact .inl ⟨[], text, name, rfl, starts⟩
    | cons c part => exact .inr ⟨c :: part, name, List.suffix_append _ _, by simp, starts⟩

/-! ## Partitions -/

/-- A definition with the main text up to the next one. -/
structure Segment where
  /-- The name that is defined. -/
  name : Text
  /-- The definition. -/
  text : Text
  /-- The line break behind the definition, if there is one. -/
  gap : Text
  /-- The main text behind the line break. -/
  main : Text

namespace Segment

/-- All of the segment. -/
def whole (segment : Segment) : Text :=
  segment.text ++ (segment.gap ++ segment.main)

/-- Segments one after the other. -/
def join (segments : List Segment) : Text :=
  segments.flatMap whole

/-- What makes a segment when a text follows it. -/
structure Fits (segment : Segment) (behind : Text) : Prop where
  /-- The head of a definition starts the segment; its end may lie behind the definition. -/
  starts : (segment.whole ++ behind).StartsDefinition segment.name
  /-- The definition is one block. -/
  isBlock : segment.text.IsBlock
  /-- A line break is taken off if there is one. -/
  gap_eq : segment.gap = ['\n'] ∨
    segment.gap = [] ∧ (segment.main ++ behind).head? ≠ some '\n'
  /-- No definition is left. -/
  main_free : ¬segment.main.HoldsDefinition

/-- The definitions of segments that start on `line`. -/
def definitions (line : Nat) : List Segment → Templates
  | [] => []
  | segment :: others =>
      Program.definition segment.name segment.text line ::
        definitions (line + segment.whole.breaks) others

/-- A definition among others, found in its segment. -/
theorem exists_eq_append_of_definitions_eq_append
    {line : Nat}
    {segments : List Segment}
    {earlier later : Templates}
    {template : Template}
    (equal : definitions line segments = earlier ++ template :: later) :
    ∃ front segment behind, segments = front ++ segment :: behind ∧
      earlier.map Template.name = front.map name ∧
      template =
        Program.definition segment.name segment.text (line + (Segment.join front).breaks) := by
  induction segments generalizing line earlier with
  | nil => simp [definitions] at equal
  | cons first segments inductionHypothesis =>
      cases earlier with
      | nil =>
          obtain ⟨rfl, _⟩ := List.cons.inj equal
          exact ⟨[], first, segments, rfl, rfl, rfl⟩
      | cons template earlier =>
          obtain ⟨rfl, others⟩ := List.cons.inj equal
          obtain ⟨front, segment, behind, rfl, names, rfl⟩ := inductionHypothesis others
          refine ⟨first :: front, segment, behind, rfl, by simp [names, Program.definition], ?_⟩
          simp [join, Nat.add_assoc]

theorem map_name_definitions (line : Nat) (segments : List Segment) :
    (definitions line segments).map Template.name = segments.map name := by
  induction segments generalizing line with
  | nil => rfl
  | cons segment segments inductionHypothesis =>
      simp [definitions, Program.definition, inductionHypothesis]

end Segment

/-- A text cut into a front without definitions and segments. -/
structure Partition (source : Text) where
  /-- The text in front of all definitions. -/
  front : Text
  /-- The definitions, each with what follows it. -/
  segments : List Segment
  /-- The parts make up the text. -/
  source_eq : source = front ++ Segment.join segments
  /-- No definition starts in the front. -/
  front_free : ¬front.HoldsDefinition
  /-- Every segment fits in front of the later ones. -/
  fits : ∀ earlier segment later, segments = earlier ++ segment :: later →
    segment.Fits (Segment.join later)

namespace Partition

variable {source : Text}

/-- The text outside of all definitions. -/
def main (partition : Partition source) : Text :=
  partition.front ++ partition.segments.flatMap Segment.main

/-- The definitions of a text that starts on `line`. -/
def definitions (line : Nat) (partition : Partition source) : Templates :=
  Segment.definitions (line + partition.front.breaks) partition.segments

/-- The program that a partition shows. -/
def program (line : Nat) (partition : Partition source) : Program :=
  ⟨partition.definitions line, partition.main⟩

/-- The partition of the empty text. -/
def empty : Partition [] where
  front := []
  segments := []
  source_eq := rfl
  front_free := by
    rintro ⟨before, behind, name, equal, spacing, padding, rest, rfl, _⟩
    simp [Keyword.opener, Statement.opening] at equal
  fits := by simp

/-- Text in front of a partition, if no definition starts in it. -/
def prepend
    (partition : Partition source)
    (text : Text)
    (free : ∀ part name, part <:+ text → part ≠ [] → ¬Text.StartsDefinition (part ++ source) name) :
    Partition (text ++ source) where
  front := text ++ partition.front
  segments := partition.segments
  source_eq := by rw [List.append_assoc, ← partition.source_eq]
  front_free := by
    intro holds
    rcases holds.of_append with holds | ⟨part, name, suffix, nonempty, starts⟩
    · exact partition.front_free holds
    · apply free part name suffix nonempty
      rw [partition.source_eq, ← List.append_assoc]
      exact starts.append _
  fits := partition.fits

/-- A definition in front of a partition. -/
def define
    (partition : Partition source)
    (name text gap : Text)
    (starts : (text ++ (gap ++ source)).StartsDefinition name)
    (isBlock : text.IsBlock)
    (isGap : gap = ['\n'] ∨ gap = [] ∧ source.head? ≠ some '\n') :
    Partition (text ++ (gap ++ source)) where
  front := []
  segments := ⟨name, text, gap, partition.front⟩ :: partition.segments
  source_eq := by simp [Segment.join, Segment.whole, partition.source_eq]
  front_free := empty.front_free
  fits := by
    intro earlier segment later equal
    cases earlier with
    | nil =>
        obtain ⟨rfl, rfl⟩ := List.cons.inj equal
        refine ⟨?_, isBlock, ?_, partition.front_free⟩
        · rw [partition.source_eq] at starts
          simpa [Segment.whole] using starts
        · rwa [partition.source_eq] at isGap
    | cons first earlier => exact partition.fits earlier segment later (List.cons.inj equal).2

end Partition

/-! ## Taking definitions out -/

theorem Marker.breaks_text (marker : Marker) : marker.text.breaks = 0 := by
  cases marker with
  | opens keyword => cases keyword <;> rfl
  | closes => rfl

theorem Block.lineAfter_eq (line : Nat) (c : Char) : lineAfter line c = line + Text.breaks [c] := by
  by_cases isBreak : c = '\n' <;> simp [lineAfter, Text.breaks, isBreak]

namespace Partition

variable {source : Text}

theorem program_prepend
    (partition : Partition source)
    (line : Nat)
    (text : Text)
    (free : ∀ part name, part <:+ text → part ≠ [] → ¬Text.StartsDefinition (part ++ source) name) :
    (partition.prepend text free).program line =
      (partition.program (line + text.breaks)).prependMain text := by
  simp [program, definitions, main, prepend, Program.prependMain, Nat.add_assoc]

theorem program_define
    (partition : Partition source)
    (line : Nat)
    (name text gap : Text)
    (starts : Text.StartsDefinition (text ++ (gap ++ source)) name)
    (isBlock : text.IsBlock)
    (isGap : gap = ['\n'] ∨ gap = [] ∧ source.head? ≠ some '\n') :
    (partition.define name text gap starts isBlock isGap).program line =
      (partition.program (line + text.breaks + gap.breaks)).prependTemplate
        (Program.definition name text line) := by
  simp [program, definitions, main, define, Program.prependTemplate, Segment.definitions,
    Segment.whole, Nat.add_assoc]

end Partition

namespace Program

/-- Taking off a leading line break leaves the pieces of what is behind it. -/
theorem exists_gap_of_split_join
    {pieces : List (Piece Marker)}
    (whole : Marker.form.split (Marker.form.join pieces) = pieces) :
    ∃ gap, Marker.form.join pieces = gap ++ Marker.form.join (dropBreak pieces) ∧
      (gap = ['\n'] ∨ gap = [] ∧ (Marker.form.join (dropBreak pieces)).head? ≠ some '\n') ∧
      gap.breaks = leadingBreaks pieces ∧
      Marker.form.split (Marker.form.join (dropBreak pieces)) = dropBreak pieces := by
  match pieces with
  | [] => exact ⟨[], rfl, .inr ⟨rfl, by simp [dropBreak]⟩, rfl, whole⟩
  | .char c :: pieces =>
      by_cases isBreak : c = '\n'
      · subst isBreak
        have parts : Marker.form.split (Marker.form.join (.char '\n' :: pieces)) =
            [.char '\n'] ++ pieces := whole
        exact ⟨['\n'], rfl, .inl rfl, rfl, Marker.form.split_join_of_split_eq_append parts⟩
      · have kept : dropBreak (.char c :: pieces) = .char c :: pieces := by
          simp [dropBreak, isBreak]
        rw [kept]
        exact ⟨[], rfl, .inr ⟨rfl, by simp [isBreak]⟩, by simp [leadingBreaks, isBreak], whole⟩
  | .phrase marker :: pieces =>
      obtain ⟨c, word, text_eq, _⟩ := marker.exists_text_eq
      have written : Marker.form.write marker = '{' :: '{' :: c :: word := text_eq
      exact ⟨[], rfl, .inr ⟨rfl, by simp [dropBreak, written]⟩, rfl, whole⟩

/-- No definition starts at a character that belongs to no marker. -/
theorem not_startsDefinition_of_char
    {c : Char}
    {pieces : List (Piece Marker)}
    (whole : Marker.form.split (Marker.form.join (.char c :: pieces)) = .char c :: pieces)
    {part : Text}
    (name : Text)
    (suffix : part <:+ [c])
    (nonempty : part ≠ []) :
    ¬Text.StartsDefinition (part ++ Marker.form.join pieces) name := by
  intro starts
  obtain rfl : part = [c] := by
    rcases List.suffix_cons_iff.mp suffix with same | empty
    · exact same
    · exact absurd (List.suffix_nil.mp empty) nonempty
  obtain ⟨behind, read⟩ := starts.exists_read?_eq
  have none := Marker.form.read?_eq_none_of_split_eq_cons whole
  rw [Form.join_cons, Piece.text_char, read] at none
  cases none

/-- No definition starts at a marker that is not completed to a head, nor inside of any. -/
theorem not_startsDefinition_of_marker
    {marker : Marker}
    {pieces : List (Piece Marker)}
    (whole : Marker.form.split (Marker.form.join (.phrase marker :: pieces)) =
      .phrase marker :: pieces)
    (unnamed : definedName? marker pieces = none)
    {part : Text}
    (name : Text)
    (suffix : part <:+ marker.text)
    (nonempty : part ≠ []) :
    ¬Text.StartsDefinition (part ++ Marker.form.join pieces) name := by
  intro starts
  obtain ⟨behind, read⟩ := starts.exists_read?_eq
  have markerRead := Marker.form.read?_eq_some_of_split_eq_cons whole
  rw [← List.cons_head_tail marker.text_ne_nil] at suffix
  rcases List.suffix_cons_iff.mp suffix with same | inside
  · rw [List.cons_head_tail] at same
    subst same
    have define := (Prod.mk.inj (Option.some.inj (markerRead.symm.trans read))).1
    rw [definedName?_eq_some_iff.mpr ⟨define, starts⟩] at unnamed
    cases unnamed
  · have none := Marker.form_keepsApart markerRead part inside nonempty
    rw [read] at none
    cases none

/-- Taking the definitions out of a text shows a partition of it. -/
theorem exists_partition_of_takeDefinitions
    {line : Nat}
    {pieces : List (Piece Marker)}
    {program : Program}
    (whole : Marker.form.split (Marker.form.join pieces) = pieces)
    (taken : takeDefinitions line pieces = .ok program) :
    ∃ partition : Partition (Marker.form.join pieces), partition.program line = program := by
  -- what is left of a split is the split of what is left, so `whole` holds at every step
  fun_induction takeDefinitions line pieces generalizing program with
  | case1 line =>
      cases taken
      exact ⟨.empty, rfl⟩
  | case2 line c pieces inductionHypothesis =>
      obtain ⟨rest, found, equal⟩ := bind_eq_ok_iff.mp taken
      have parts : Marker.form.split (Marker.form.join (.char c :: pieces)) =
          [.char c] ++ pieces := whole
      obtain ⟨partition, rfl⟩ :=
        inductionHypothesis (Marker.form.split_join_of_split_eq_append parts) found
      rw [← pure_eq_ok_iff.mp equal, Block.lineAfter_eq]
      exact ⟨partition.prepend [c] fun part => not_startsDefinition_of_char whole,
        partition.program_prepend line [c] _⟩
  | case3 line marker pieces unnamed inductionHypothesis =>
      obtain ⟨rest, found, equal⟩ := bind_eq_ok_iff.mp taken
      have parts : Marker.form.split (Marker.form.join (.phrase marker :: pieces)) =
          [.phrase marker] ++ pieces := whole
      obtain ⟨partition, rfl⟩ :=
        inductionHypothesis (Marker.form.split_join_of_split_eq_append parts) found
      have text_eq : Marker.form.join (.phrase marker :: pieces) =
          marker.text ++ Marker.form.join pieces := rfl
      rw [← pure_eq_ok_iff.mp equal, text_eq]
      refine ⟨partition.prepend marker.text fun part =>
        not_startsDefinition_of_marker whole unnamed, ?_⟩
      rw [Partition.program_prepend, marker.breaks_text, Nat.add_zero]
  | case4 line marker pieces name named block unclosed => cases taken
  | case5 line marker pieces name named inside behind closed body =>
      rename_i inductionHypothesis
      obtain ⟨rest, found, equal⟩ := bind_eq_ok_iff.mp taken
      obtain ⟨rfl, starts⟩ := definedName?_eq_some_iff.mp named
      have opened : Marker.form.split (Marker.form.join (.phrase (.opens .define) :: pieces)) =
          [] ++ .phrase (.opens .define) :: pieces := whole
      have isBlock : Text.IsBlock (Marker.text (.opens .define) ++ body) :=
        Block.isBlock_of_close opened closed
      obtain rfl := Block.append_eq_of_close closed
      have parts : Marker.form.split
          (Marker.form.join (.phrase (.opens .define) :: (inside ++ behind))) =
          (.phrase (.opens .define) :: inside) ++ behind := whole
      obtain ⟨gap, behind_eq, isGap, breaks_eq, wholeBehind⟩ :=
        exists_gap_of_split_join (Marker.form.split_join_of_split_eq_append parts)
      obtain ⟨partition, rfl⟩ := inductionHypothesis wholeBehind found
      have text_eq : Marker.form.join (.phrase (.opens .define) :: (inside ++ behind)) =
          Marker.text (.opens .define) ++ body ++
            (gap ++ Marker.form.join (dropBreak behind)) := by
        rw [Form.join_cons, Form.join_append, ← List.append_assoc, behind_eq]
        rfl
      rw [text_eq] at starts
      rw [← pure_eq_ok_iff.mp equal, text_eq]
      refine ⟨partition.define name _ gap starts isBlock isGap, ?_⟩
      rw [Partition.program_define, Text.breaks_append, Marker.breaks_text, Nat.zero_add, breaks_eq]

end Program

/-! ## The first definition of every name -/

theorem eraseDups_filter
    {α : Type}
    [BEq α]
    [LawfulBEq α]
    (keeps : α → Bool)
    (items : List α) :
    (items.filter keeps).eraseDups = items.eraseDups.filter keeps := by
  induction shorter : items.length using Nat.strong_induction_on generalizing items with
  | _ length inductionHypothesis =>
      cases items with
      | nil => rfl
      | cons item items =>
          have others := inductionHypothesis (items.filter fun other => !other == item).length
            (by
              have := List.length_filter_le (fun other => !other == item) items
              rw [List.length_cons] at shorter
              omega) _ rfl
          rw [List.eraseDups_cons]
          by_cases kept : keeps item = true
          · rw [List.filter_cons_of_pos kept, List.filter_cons_of_pos kept, List.eraseDups_cons,
              ← others, List.filter_filter, List.filter_filter]
            simp only [Bool.and_comm]
          · rw [List.filter_cons_of_neg kept, List.filter_cons_of_neg kept, ← others,
              List.filter_filter]
            congr 1
            refine List.filter_congr fun other member => ?_
            cases same : other == item with
            | false => simp
            | true =>
                rw [eq_of_beq same]
                simp [kept]

namespace Templates

/-- The names of the templates that are kept are the names that occur, in the order of their first
occurrences. -/
theorem map_name_keepFirst (templates : Templates) :
    templates.keepFirst.map Template.name = (templates.map Template.name).eraseDups := by
  induction templates with
  | nil => rfl
  | cons template others inductionHypothesis =>
      have filtered : ((keepFirst others).filter fun other => other.name ≠ template.name).map
          Template.name =
          ((keepFirst others).map Template.name).filter fun name => !name == template.name := by
        rw [List.filter_map]
        congr 2
        funext other
        by_cases same : other.name = template.name <;> simp [same]
      rw [keepFirst, List.map_cons, filtered, inductionHypothesis, List.map_cons,
        List.eraseDups_cons, eraseDups_filter]

/-- A template that is kept is the first of its name. -/
theorem exists_eq_append_of_mem_keepFirst
    {templates : Templates}
    {template : Template}
    (member : template ∈ templates.keepFirst) :
    ∃ earlier later, templates = earlier ++ template :: later ∧
      template.name ∉ earlier.map Template.name := by
  induction templates with
  | nil => cases member
  | cons first others inductionHypothesis =>
      rcases List.mem_cons.mp member with rfl | member
      · exact ⟨[], others, rfl, by simp⟩
      · obtain ⟨memberOthers, different⟩ := List.mem_filter.mp member
        obtain ⟨earlier, later, rfl, absent⟩ := inductionHypothesis memberOthers
        refine ⟨first :: earlier, later, rfl, ?_⟩
        rw [List.map_cons, List.mem_cons, not_or]
        exact ⟨of_decide_eq_true different, absent⟩

theorem nodup_map_name_keepFirst (templates : Templates) :
    (templates.keepFirst.map Template.name).Nodup := by
  induction templates with
  | nil => exact .nil
  | cons template others inductionHypothesis =>
      rw [keepFirst, List.map_cons, List.nodup_cons]
      refine ⟨?_, inductionHypothesis.sublist (List.filter_sublist.map Template.name)⟩
      intro member
      obtain ⟨other, isOther, same⟩ := List.mem_map.mp member
      exact of_decide_eq_true (List.mem_filter.mp isOther).2 same

end Templates

namespace Program

/-- A program is extracted from a partition of the text. -/
theorem exists_partition_of_ofText
    {source : Text}
    {program : Program}
    (extracted : ofText source = .ok program) :
    ∃ partition : Partition source,
      program = ⟨(partition.definitions 1).keepFirst.promote, partition.main⟩ := by
  obtain ⟨taken, found, equal⟩ := bind_eq_ok_iff.mp extracted
  have whole : Marker.form.split (Marker.form.join (Marker.form.split source)) =
      Marker.form.split source := by rw [Form.join_split]
  have partitioned := exists_partition_of_takeDefinitions whole found
  rw [Form.join_split] at partitioned
  obtain ⟨partition, rfl⟩ := partitioned
  exact ⟨partition, (pure_eq_ok_iff.mp equal).symm⟩

/-- Extraction partitions a text: its definitions make up the templates, the first one of every
name, and what is outside of them is the main text. -/
theorem ofText_partitions
    {source : Text}
    {program : Program}
    (extracted : ofText source = .ok program) :
    ∃ partition : Partition source,
      program.main = partition.main ∧
      program.templates.map Template.name = (partition.segments.map Segment.name).eraseDups ∧
      ∀ template ∈ program.templates, ∃ earlier first later,
        partition.segments = earlier ++ first :: later ∧
        first.name = template.name ∧ template.name ∉ earlier.map Segment.name ∧
        template.text = first.text ∧
        template.line = 1 + Text.breaks (partition.front ++ Segment.join earlier) ∧
        template.signature.returns = (Signature.ofText first.text).returns := by
  obtain ⟨partition, rfl⟩ := exists_partition_of_ofText extracted
  refine ⟨partition, rfl, ?_, ?_⟩
  · rw [Templates.map_promote fun _ _ => rfl, Templates.map_name_keepFirst]
    exact congrArg List.eraseDups (Segment.map_name_definitions _ _)
  · intro template member
    obtain ⟨kept, isKept, output, rfl⟩ := Templates.exists_of_mem_promote member
    obtain ⟨others, _, definitions_eq, absent⟩ := Templates.exists_eq_append_of_mem_keepFirst isKept
    obtain ⟨earlier, first, later, segments_eq, names, rfl⟩ :=
      Segment.exists_eq_append_of_definitions_eq_append definitions_eq
    refine ⟨earlier, first, later, segments_eq, rfl, names ▸ absent, rfl, ?_, rfl⟩
    rw [Text.breaks_append, ← Nat.add_assoc]
    rfl

/-- A name that is defined twice, definitions that touch, and a name with an end statement in it. -/
theorem ofText_partitions_touching :
    let head : Text := (Statement.mk "define \"a\"".toList).text
    let nested : Text :=
      head ++ (Statement.mk "if 1".toList).text ++ (Statement.mk "return 2".toList).text ++
        Marker.closer ++ Marker.closer
    let oddName : Text := 'b' :: Marker.closer
    let odd : Text := Keyword.define.opener ++ " \"".toList ++ oddName
    let oddRest : Text := '"' :: Statement.closing
    let again : Text := head ++ (Statement.mk "print 1".toList).text ++ Marker.closer
    let source : Text := "x\n".toList ++ nested ++ odd ++ oddRest ++ again ++ "\n\ny".toList
    let program : Program :=
      ⟨[⟨"a".toList, nested, 2, ⟨.pure, .valued⟩⟩, ⟨oddName, odd, 2, ⟨.pure, .bare⟩⟩],
        "x\n".toList ++ oddRest ++ "\ny".toList⟩
    ofText source = .ok program ∧
      ∃ partition : Partition source,
        program.main = partition.main ∧
        (partition.segments.map Segment.name).eraseDups = ["a".toList, oddName] ∧
        ∀ template ∈ program.templates, ∃ earlier first later,
          partition.segments = earlier ++ first :: later ∧
          first.name = template.name ∧ template.name ∉ earlier.map Segment.name ∧
          template.text = first.text ∧
          template.line = 1 + Text.breaks (partition.front ++ Segment.join earlier) ∧
          template.signature.returns = (Signature.ofText first.text).returns := by
  intro head nested oddName odd oddRest again source program
  have extracted : ofText source = .ok program := by decide +kernel
  obtain ⟨partition, main_eq, names, templates⟩ := ofText_partitions extracted
  exact ⟨extracted, partition, main_eq, names.symm, templates⟩

end Program
end OutputThreading
