import Mathlib.Data.List.Nodup
import OutputThreading.Proofs.Files.Listing
import OutputThreading.Proofs.Text.Bytes

/-!
# The order of paths

Paths are sorted by the keys of their components.  Paths that are written differently may have the
same key, and sorting leaves them in the order in which they came.  So two lists are sorted alike if
they have the same paths of every key, in the same order (`Path.SameForKeys.mergeSort_eq`).  Files
below one folder never share a key (`Path.names_eq_of_sortKey_descend_eq`), and comparing names byte
by byte is comparing them character by character (`Text.compareNumbers_bytes`).
-/

namespace OutputThreading
namespace Path

/-! ## Sorting -/

theorem le_trans (first second third : Path) :
    first.le second = true → second.le third = true → first.le third = true :=
  Std.TransCmp.isLE_trans

theorem le_total (left right : Path) : (left.le right || right.le left) = true := by
  have swapped : List.compareLex (List.compareLex compare) right.sortKey left.sortKey =
      (List.compareLex (List.compareLex compare) left.sortKey right.sortKey).swap :=
    Std.OrientedCmp.eq_swap
  unfold le
  rw [swapped]
  cases List.compareLex (List.compareLex compare) left.sortKey right.sortKey <;> rfl

theorem le_of_sortKey_eq {left right : Path} (same : left.sortKey = right.sortKey) :
    left.le right = true := by
  unfold le
  rw [same]
  exact Std.ReflCmp.isLE_rfl

theorem sortKey_eq_of_le_of_le
    {left right : Path}
    (before : left.le right = true)
    (behind : right.le left = true) :
    left.sortKey = right.sortKey :=
  Std.LawfulEqCmp.eq_of_compare (Std.OrientedCmp.isLE_antisymm before behind)

/-- The paths of a list are ordered. -/
abbrev IsSorted (paths : List Path) : Prop :=
  paths.Pairwise fun first second => first.le second = true

/-- The paths of the list that have the key. -/
def withKey (key : List (List Nat)) (paths : List Path) : List Path :=
  paths.filter fun path => path.sortKey = key

theorem IsSorted.le_of_mem
    {first path : Path}
    {others : List Path}
    (sorted : IsSorted (first :: others))
    (member : path ∈ first :: others) :
    first.le path = true := by
  rcases List.mem_cons.mp member with rfl | member
  · exact le_of_sortKey_eq rfl
  · exact (List.pairwise_cons.mp sorted).1 path member

theorem mem_withKey {key : List (List Nat)} {paths : List Path} {path : Path} :
    path ∈ withKey key paths ↔ path ∈ paths ∧ path.sortKey = key := by
  simp [withKey]

theorem withKey_cons_self (path : Path) (paths : List Path) :
    withKey path.sortKey (path :: paths) = path :: withKey path.sortKey paths := by
  simp [withKey]

/-- The lists have the same paths of every key, in the same order. -/
def SameForKeys (left right : List Path) : Prop :=
  ∀ key, withKey key left = withKey key right

namespace SameForKeys

variable {left right otherLeft otherRight : List Path}

theorem refl (paths : List Path) : SameForKeys paths paths :=
  fun _ => rfl

theorem append
    (front : SameForKeys left right)
    (behind : SameForKeys otherLeft otherRight) :
    SameForKeys (left ++ otherLeft) (right ++ otherRight) := by
  intro key
  unfold withKey
  rw [List.filter_append, List.filter_append]
  exact congrArg₂ (· ++ ·) (front key) (behind key)

/-- Paths with keys of their own may be listed in any order. -/
theorem of_perm
    (perm : left.Perm right)
    (distinct : (left.map sortKey).Nodup) :
    SameForKeys left right := by
  intro key
  have keys_eq : (withKey key left).map sortKey = List.replicate (withKey key left).length key := by
    rw [List.eq_replicate_iff, List.length_map]
    refine ⟨rfl, fun other member => ?_⟩
    obtain ⟨path, isIn, rfl⟩ := List.mem_map.mp member
    exact (mem_withKey.mp isIn).2
  have single : (withKey key left).length ≤ 1 := by
    rw [← List.nodup_replicate, ← keys_eq]
    exact distinct.sublist (List.filter_sublist.map sortKey)
  have kept : (withKey key left).Perm (withKey key right) := perm.filter _
  match found : withKey key left with
  | [] => rw [found] at kept; exact (List.nil_perm.mp kept).symm
  | [path] => rw [found] at kept; exact List.singleton_perm.mp kept
  | first :: second :: others => simp [found] at single

/-- Sorting keeps the paths of one key in their order. -/
theorem mergeSort (paths : List Path) : SameForKeys (paths.mergeSort le) paths := by
  intro key
  symm
  have sorted : IsSorted (withKey key paths) := by
    refine List.pairwise_of_forall_mem_list fun first isFirst second isSecond => ?_
    exact le_of_sortKey_eq ((mem_withKey.mp isFirst).2.trans (mem_withKey.mp isSecond).2.symm)
  have part : (withKey key paths).Sublist (withKey key (paths.mergeSort le)) := by
    have kept := (List.sublist_mergeSort le_trans le_total sorted List.filter_sublist).filter
      fun path => decide (path.sortKey = key)
    simpa only [withKey, List.filter_filter, Bool.and_self] using kept
  exact part.eq_of_length ((List.mergeSort_perm paths le).filter _).length_eq.symm

/-- Ordered lists with the same paths of every key are the same. -/
theorem eq_of_isSorted
    (same : SameForKeys left right)
    (leftSorted : IsSorted left)
    (rightSorted : IsSorted right) :
    left = right := by
  induction left generalizing right with
  | nil =>
      cases right with
      | nil => rfl
      | cons path right =>
          have found := same path.sortKey
          rw [withKey_cons_self] at found
          cases found
  | cons first left inductionHypothesis =>
      have found := same first.sortKey
      rw [withKey_cons_self] at found
      cases right with
      | nil => cases found
      | cons second right =>
          have foundOther := same second.sortKey
          rw [withKey_cons_self] at foundOther
          -- each list holds the first path of the other, so that both first paths have one key
          have isSecond : first ∈ withKey first.sortKey (second :: right) := by simp [← found]
          have isFirst : second ∈ withKey second.sortKey (first :: left) := by simp [foundOther]
          have key_eq : first.sortKey = second.sortKey :=
            sortKey_eq_of_le_of_le (leftSorted.le_of_mem (mem_withKey.mp isFirst).1)
              (rightSorted.le_of_mem (mem_withKey.mp isSecond).1)
          rw [key_eq, withKey_cons_self] at found
          obtain rfl : first = second := (List.cons.inj found).1
          rw [inductionHypothesis (fun key => ?_) leftSorted.of_cons rightSorted.of_cons]
          have others := same key
          by_cases own : first.sortKey = key
          · simpa [withKey, own] using others
          · simpa [withKey, own] using others

theorem mergeSort_eq (same : SameForKeys left right) : left.mergeSort le = right.mergeSort le := by
  refine eq_of_isSorted (fun key => ?_) (List.pairwise_mergeSort le_trans le_total left)
    (List.pairwise_mergeSort le_trans le_total right)
  rw [mergeSort left key, same key, mergeSort right key]

end SameForKeys

/-! ## Keys of files below a folder -/

/-- Components have keys of their own. -/
theorem componentKey_injective : Function.Injective componentKey := by
  intro left right same
  have characters : left.map Char.toNat = right.map Char.toNat → left = right :=
    (List.map_inj_right fun _ _ => Char.toNat_inj.mp).mp
  grind [componentKey]

variable {names otherNames : List Text}

/-- File names that are not hidden are further components behind a path. -/
theorem components_descend
    (path : Path)
    (proper : ∀ name ∈ names, name.IsFileName ∧ Folder.isHidden name = false) :
    (path.descend names).components = path.components ++ names := by
  have areNames : ∀ name ∈ names, name.IsFileName := fun name member => (proper name member).1
  have notHere : ∀ name ∈ names, name ≠ here := by
    rintro name member rfl
    cases (proper here member).2
  have kept {others : List Text} (part : others ⊆ names) : others.filter (· ≠ here) = others :=
    List.filter_eq_self.mpr fun name member => decide_eq_true (notHere name (part member))
  unfold components
  rw [path.parts_descend areNames, path.isAbsolute_descend areNames]
  cases path.parts with
  | cons first others =>
      simp only [List.cons_append, List.filter_append, kept (List.Subset.refl names)]
      split <;> rfl
  | nil =>
      cases names with
      | nil => rfl
      | cons name names =>
          simp only [List.nil_append, notHere name List.mem_cons_self, decide_false,
            Bool.false_and, Bool.false_eq_true, if_false, kept (List.subset_cons_self name names)]

/-- Different files below one folder have different keys. -/
theorem names_eq_of_sortKey_descend_eq
    {path : Path}
    (proper : ∀ name ∈ names, name.IsFileName ∧ Folder.isHidden name = false)
    (otherProper : ∀ name ∈ otherNames, name.IsFileName ∧ Folder.isHidden name = false)
    (same : (path.descend names).sortKey = (path.descend otherNames).sortKey) :
    names = otherNames := by
  unfold sortKey at same
  rw [path.isAbsolute_descend fun name member => (proper name member).1,
    path.isAbsolute_descend fun name member => (otherProper name member).1,
    path.components_descend proper, path.components_descend otherProper, List.map_append,
    List.map_append, List.append_cancel_left_eq, List.append_cancel_left_eq] at same
  exact List.map_injective_iff.mpr componentKey_injective same

/-! ## The order by bytes -/

/-- What paths are compared by: the root, if a path starts there, and the components. -/
def steps (path : Path) : List (Option Text) :=
  (if path.isAbsolute then [none] else []) ++ path.components.map some

/-- The key of a step by its bytes: the root comes before the place itself, that before the
containing folder, and that before all names. -/
def stepBytes : Option Text → List Nat
  | none => [0]
  | some component =>
      if component = here then [1]
      else if component = up then [2]
      else 3 :: component.bytes

/-- The first path does not come behind the second one, when they are compared component by component
and names by their bytes. -/
def ComesFirst (first second : Path) : Prop :=
  (List.compareLex compareNumbers (first.steps.map stepBytes)
    (second.steps.map stepBytes)).isLE = true

instance (first second : Path) : Decidable (ComesFirst first second) :=
  inferInstanceAs (Decidable (_ = true))

/-- The key of a step by code points. -/
def stepKey (step : Option Text) : List Nat :=
  step.elim [0] componentKey

theorem sortKey_eq_map_steps (path : Path) : path.sortKey = path.steps.map stepKey := by
  unfold sortKey steps
  cases path.isAbsolute <;> simp [stepKey, Function.comp_def]

theorem compareNumbers_stepBytes (left right : Option Text) :
    compareNumbers (stepBytes left) (stepBytes right) =
      compareNumbers (stepKey left) (stepKey right) := by
  cases left with
  | none =>
      cases right with
      | none => rfl
      | some right =>
          simp only [stepBytes, stepKey, Option.elim, componentKey]
          split_ifs <;> rfl
  | some left =>
      cases right with
      | none =>
          simp only [stepBytes, stepKey, Option.elim, componentKey]
          split_ifs <;> rfl
      | some right =>
          simp only [stepBytes, stepKey, Option.elim, componentKey]
          have names : compareNumbers (3 :: left.bytes) (3 :: right.bytes) =
              compareNumbers (3 :: left.map Char.toNat) (3 :: right.map Char.toNat) :=
            Text.compareNumbers_bytes left right
          split_ifs
          all_goals first | exact names | rfl

theorem compareLex_map_congr
    {α : Type}
    {f g : α → List Nat}
    (same : ∀ first second, compareNumbers (f first) (f second) = compareNumbers (g first) (g second))
    (left right : List α) :
    List.compareLex compareNumbers (left.map f) (right.map f) =
      List.compareLex compareNumbers (left.map g) (right.map g) := by
  induction left generalizing right with
  | nil => cases right <;> rfl
  | cons first left inductionHypothesis =>
      cases right with
      | nil => rfl
      | cons second right =>
          simp only [List.map_cons, List.compareLex_cons_cons, same, inductionHypothesis]

/-- Paths are ordered by the bytes of their components. -/
theorem le_eq_true_iff {left right : Path} : left.le right = true ↔ left.ComesFirst right := by
  unfold le ComesFirst
  rw [sortKey_eq_map_steps, sortKey_eq_map_steps,
    compareLex_map_congr compareNumbers_stepBytes left.steps right.steps]

end Path
end OutputThreading
