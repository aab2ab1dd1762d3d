import OutputThreading.Proofs.Form
import OutputThreading.Proofs.NameSupply
import OutputThreading.Proofs.Text.Occurrence
import OutputThreading.Proofs.Text.Space

/-!
# Finding variables

A dollar sign is no part of a word, so the variables of a text can be looked for in the parts between
dollar signs, and a variable that stands in a text is found (`Text.mem_variableNames`).
-/

namespace OutputThreading
namespace Variable

theorem read?_cons_of_ne {c : Char} (different : c ≠ '$') (rest : Text) :
    read? (c :: rest) = none := by
  simp [read?, Text.after?_cons_of_ne different]

theorem read?_dollar (rest : Text) :
    read? ('$' :: rest) =
      if rest.takeWhile Character.isWord = [] then none
      else some (⟨rest.takeWhile Character.isWord⟩, rest.dropWhile Character.isWord) := by
  simp [read?]

theorem isWord_dollar : Character.isWord '$' = false := by
  decide +kernel

/-- A dollar sign ends whatever variable is in front of it. -/
theorem split_append_dollar (front rest : Text) :
    form.split (front ++ '$' :: rest) = form.split front ++ form.split ('$' :: rest) := by
  fun_induction form.split front with
  | case1 => rfl
  | case2 c tail token behind found inductionHypothesis =>
      have dollar : c = '$' := by
        by_contra different
        rw [show form.read? (c :: tail) = none from read?_cons_of_ne different tail] at found
        cases found
      subst dollar
      have read : read? ('$' :: tail) = some (token, behind) := found
      rw [read?_dollar] at read
      split at read
      · cases read
      next named =>
        simp only [Option.some.injEq, Prod.mk.injEq] at read
        obtain ⟨rfl, rfl⟩ := read
        have again : form.read? ('$' :: (tail ++ '$' :: rest)) =
            some (⟨tail.takeWhile Character.isWord⟩,
              tail.dropWhile Character.isWord ++ '$' :: rest) := by
          show read? _ = _
          rw [read?_dollar, Text.takeWhile_append_cons isWord_dollar,
            Text.dropWhile_append_cons isWord_dollar, if_neg named]
        rw [List.cons_append, form.split_of_read? again, inductionHypothesis, List.cons_append]
  | case3 c tail notFound inductionHypothesis =>
      have again : form.read? (c :: (tail ++ '$' :: rest)) = none := by
        by_cases dollar : c = '$'
        · subst dollar
          have read : read? ('$' :: tail) = none := notFound
          show read? _ = none
          rw [read?_dollar] at read ⊢
          rw [Text.takeWhile_append_cons isWord_dollar]
          split at read
          next unnamed => rw [if_pos unnamed]
          next => cases read
        · exact read?_cons_of_ne dollar _
      rw [List.cons_append, form.split_cons_of_read?_eq_none again, inductionHypothesis,
        List.cons_append]

end Variable

namespace Text

/-- A variable that stands in a text, with something behind it that ends it, is found. -/
theorem mem_variableNames
    {name : Text}
    (nonempty : name ≠ [])
    (word : ∀ c ∈ name, Character.isWord c = true)
    {c : Char}
    (ends : Character.isWord c = false)
    {text : Text}
    (inside : '$' :: name ++ [c] <:+: text) :
    '$' :: name ∈ text.variableNames := by
  obtain ⟨front, rest, rfl⟩ := inside
  have taken : (name ++ c :: rest).takeWhile Character.isWord = name := by
    rw [List.takeWhile_append_of_pos word, List.takeWhile_cons_of_neg (by simp [ends]),
      List.append_nil]
  have found : Variable.form.read? ('$' :: (name ++ c :: rest)) =
      some (⟨name⟩, (name ++ c :: rest).dropWhile Character.isWord) := by
    show Variable.read? _ = _
    rw [Variable.read?_dollar, taken, if_neg nonempty]
  have parts : front ++ ('$' :: name ++ [c]) ++ rest = front ++ '$' :: (name ++ c :: rest) := by
    simp
  rw [variableNames, Form.phrases, parts, Variable.split_append_dollar, List.filterMap_append,
    Variable.form.split_of_read? found, List.filterMap_cons_some (Piece.phrase?_phrase _),
    List.map_append, List.map_cons]
  exact List.mem_append_right _ List.mem_cons_self

end Text

/-- The accumulator is a variable. -/
theorem NameSupply.IsGenerated.exists_accumulator_eq_cons
    {names : NameSupply}
    (generated : names.IsGenerated) :
    ∃ name, names.accumulator = '$' :: name ∧ name ≠ [] ∧
      ∀ c ∈ name, Character.isWord c = true := by
  obtain ⟨digits, numeric, equal⟩ := generated.accumulator_eq
  have default : Accumulator.defaultName = '$' :: "output".toList := by decide
  refine ⟨"output".toList ++ digits, by rw [equal, default]; rfl, by simp, ?_⟩
  intro c member
  refine Character.isWord_of_isAlphanum ?_
  rcases List.mem_append.mp member with letter | digit
  · exact List.all_eq_true.mp (by decide : "output".toList.all Char.isAlphanum = true) c letter
  · simp [Char.isAlphanum, numeric c digit]

/-- An accumulator that is no variable of a text does not stand in front of a space there. -/
theorem NameSupply.IsGenerated.not_infix_of_notMem
    {names : NameSupply}
    (generated : names.IsGenerated)
    {text : Text}
    (fresh : names.accumulator ∉ text.variableNames) :
    ¬names.accumulator ++ [' '] <:+: text := by
  obtain ⟨name, equal, nonempty, word⟩ := generated.exists_accumulator_eq_cons
  intro inside
  rw [equal] at fresh inside
  have ends : Character.isWord ' ' = false := Character.isWord_eq_false_of_isSpace rfl
  exact fresh (Text.mem_variableNames nonempty word ends inside)

end OutputThreading
