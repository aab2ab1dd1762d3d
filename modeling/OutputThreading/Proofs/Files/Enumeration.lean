import Mathlib
import OutputThreading.Proofs.Files.Reach

/-!
# Runs of a listing

A listing goes through its inputs, and through the entries of a folder in the order in which they are
enumerated; a folder below is listed and sorted on its own, and in the end everything is sorted.  The
order of enumeration is left open, for every folder anew each time it is read (`Disk.Lists`).  On a
tree of folders all runs come to the same list: the files that the inputs reach, sorted by the
components of their paths (`Disk.lists_sorted_reached_files`).
-/

namespace OutputThreading
namespace Disk

mutual

/-- The files are the result of listing the inputs. -/
inductive Lists (disk : Disk) : (inputs files : List Path) → Prop where
  /-- What the inputs give is sorted. -/
  | sorted
      {inputs found : List Path}
      (gathers : Gathers disk inputs found) :
      Lists disk inputs (found.mergeSort Path.le)

/-- The files are what the inputs give one after the other. -/
inductive Gathers (disk : Disk) : (inputs found : List Path) → Prop where
  /-- There is no further input. -/
  | done : Gathers disk [] []
  /-- An input that names a folder gives what its entries give, in some order of enumeration. -/
  | folder
      {input : Path}
      {inputs found others : List Path}
      {inner : Folder}
      {names : List Text}
      (isFolder : disk.folder? input = some inner)
      (enumerates : names.Perm inner.names)
      (visits : Visits disk input names found)
      (gathers : Gathers disk inputs others) :
      Gathers disk (input :: inputs) (found ++ others)
  /-- An input that names a file gives that file. -/
  | file
      {input : Path}
      {inputs others : List Path}
      (notFolder : disk.isFolder input = false)
      (isFile : disk.isFile input = true)
      (gathers : Gathers disk inputs others) :
      Gathers disk (input :: inputs) (input :: others)
  /-- Any other input gives nothing. -/
  | other
      {input : Path}
      {inputs others : List Path}
      (notFolder : disk.isFolder input = false)
      (notFile : disk.isFile input = false)
      (gathers : Gathers disk inputs others) :
      Gathers disk (input :: inputs) others

/-- The files are what the names of entries give one after the other, in the folder at a path. -/
inductive Visits (disk : Disk) : (around : Path) → (names : List Text) → (found : List Path) → Prop
    where
  /-- There is no further entry. -/
  | done {around : Path} : Visits disk around [] []
  /-- A hidden entry is skipped. -/
  | hidden
      {around : Path}
      {name : Text}
      {names : List Text}
      {others : List Path}
      (isHidden : Folder.isHidden name = true)
      (visits : Visits disk around names others) :
      Visits disk around (name :: names) others
  /-- A folder is listed on its own. -/
  | folder
      {around : Path}
      {name : Text}
      {names : List Text}
      {found others : List Path}
      (visible : Folder.isHidden name = false)
      (isFolder : disk.isFolder (around.join name) = true)
      (lists : Lists disk [around.join name] found)
      (visits : Visits disk around names others) :
      Visits disk around (name :: names) (found ++ others)
  /-- A file is taken. -/
  | file
      {around : Path}
      {name : Text}
      {names : List Text}
      {others : List Path}
      (visible : Folder.isHidden name = false)
      (notFolder : disk.isFolder (around.join name) = false)
      (isFile : disk.isFile (around.join name) = true)
      (visits : Visits disk around names others) :
      Visits disk around (name :: names) (around.join name :: others)
  /-- Anything else is skipped. -/
  | other
      {around : Path}
      {name : Text}
      {names : List Text}
      {others : List Path}
      (visible : Folder.isHidden name = false)
      (notFolder : disk.isFolder (around.join name) = false)
      (notFile : disk.isFile (around.join name) = false)
      (visits : Visits disk around names others) :
      Visits disk around (name :: names) others

end

variable {disk : Disk}

/-! ## Entries of a folder -/

/-- The files for which an entry of the folder at a path stands. -/
def pathsOfEntry (disk : Disk) (around : Path) (name : Text) : List Path :=
  if Folder.isHidden name then [] else disk.pathsOf (around.join name)

theorem node_join_eq_ok_iff
    {around : Path}
    {inner : Folder}
    (isFolder : disk.folder? around = some inner)
    {name : Text}
    (isName : name.IsFileName)
    (visible : Folder.isHidden name = false)
    {node : Node} :
    disk.node (around.join name) = .ok node ↔ inner.find? name = some node := by
  have joined : disk.node (around.descend [name]) = .ok node ↔ inner.node? [name] = some node :=
    node_descend_eq_ok_iff (folder?_eq_some_iff.mp isFolder) (List.cons_ne_nil name [])
      (List.forall_mem_singleton.mpr ⟨isName, visible⟩)
  rw [Folder.node?_cons] at joined
  have whole (node : Node) : node.below? [] = some node := by cases node <;> rfl
  simpa [Path.descend, whole] using joined

/-- The second folder has all entries of the first one. -/
def HasEntriesOf (inner rest : Folder) : Prop :=
  ∀ name ∈ rest.names, inner.find? name = rest.find? name

theorem HasEntriesOf.of_cons
    {inner others : Folder}
    {name : Text}
    (node : Node)
    (absent : name ∉ others.names)
    (entries : HasEntriesOf inner (Folder.cons name node others)) :
    inner.find? name = some node ∧ HasEntriesOf inner others := by
  have names_eq : (Folder.cons name node others).names = name :: others.names := by
    cases node <;> rfl
  unfold HasEntriesOf at entries
  simp only [names_eq, List.forall_mem_cons, Folder.find?_cons, if_true] at entries
  refine ⟨entries.1, fun other member => ?_⟩
  have different : name ≠ other := by
    rintro rfl
    exact absent member
  rw [entries.2 other member, if_neg different]

/-- The entries of a folder, as they stand in it, stand for the files below it. -/
theorem flatMap_pathsOfEntry
    {around : Path}
    {inner rest : Folder}
    (isFolder : disk.folder? around = some inner)
    (named : rest.HasFileNames)
    (distinct : rest.HasDistinctNames)
    (entries : HasEntriesOf inner rest) :
    rest.names.flatMap (disk.pathsOfEntry around) = rest.visibleFiles.map around.descend := by
  induction rest with
  | empty => rfl
  | file name content others inductionHypothesis =>
      obtain ⟨found, entries⟩ := HasEntriesOf.of_cons (.file content) distinct.1 entries
      have first : disk.pathsOfEntry around name =
          (if Folder.isHidden name then [] else [[name]]).map around.descend := by
        cases hidden : Folder.isHidden name with
        | true => simp [pathsOfEntry, hidden]
        | false =>
            have isFile := isFile_eq_true_iff.mpr
              ⟨content, (node_join_eq_ok_iff isFolder named.1 hidden).mpr found⟩
            simp [pathsOfEntry, hidden, pathsOf_of_isFile isFile, Path.descend]
      rw [Folder.names, List.flatMap_cons, inductionHypothesis named.2 distinct.2 entries, first,
        Folder.visibleFiles, List.map_append]
  | folder name below others _ inductionHypothesis =>
      obtain ⟨found, entries⟩ := HasEntriesOf.of_cons (.folder below) distinct.1 entries
      have first : disk.pathsOfEntry around name =
          (if Folder.isHidden name then [] else below.visibleFiles.map (name :: ·)).map
            around.descend := by
        cases hidden : Folder.isHidden name with
        | true => simp [pathsOfEntry, hidden]
        | false =>
            have isBelow := folder?_eq_some_iff.mpr
              ((node_join_eq_ok_iff isFolder named.1 hidden).mpr found)
            simp [pathsOfEntry, hidden, pathsOf_of_folder? isBelow, Path.descend]
      rw [Folder.names, List.flatMap_cons, inductionHypothesis named.2.2 distinct.2.2 entries,
        first, Folder.visibleFiles, List.map_append]

/-- In whatever order the entries of a folder are enumerated, they stand for its files. -/
theorem perm_flatMap_pathsOfEntry
    (tree : disk.IsTree)
    {around : Path}
    {inner : Folder}
    (isFolder : disk.folder? around = some inner)
    {names : List Text}
    (enumerates : names.Perm inner.names) :
    (names.flatMap (disk.pathsOfEntry around)).Perm (disk.pathsOf around) := by
  obtain ⟨named, distinct⟩ := tree.of_folder? isFolder
  rw [pathsOf_of_folder? isFolder,
    ← flatMap_pathsOfEntry isFolder named distinct fun _ _ => rfl]
  exact enumerates.flatMap_right _

/-! ## All runs have the same result -/

mutual

theorem Lists.eq_listFiles
    (tree : disk.IsTree)
    {inputs files : List Path} :
    disk.Lists inputs files → files = disk.listFiles inputs
  | .sorted gathers => (gathers.sameForKeys tree).mergeSort_eq

theorem Gathers.sameForKeys
    (tree : disk.IsTree)
    {inputs found : List Path} :
    disk.Gathers inputs found → Path.SameForKeys found (inputs.flatMap disk.pathsOf)
  | .done => .refl []
  | .folder isFolder enumerates visits gathers => by
      have perm := (visits.perm tree).trans (perm_flatMap_pathsOfEntry tree isFolder enumerates)
      have distinct := (perm.map Path.sortKey).nodup_iff.mpr (nodup_sortKey_pathsOf tree _)
      exact (Path.SameForKeys.of_perm perm distinct).append (gathers.sameForKeys tree)
  | .file _ isFile gathers => by
      rw [List.flatMap_cons, pathsOf_of_isFile isFile]
      exact (Path.SameForKeys.refl [_]).append (gathers.sameForKeys tree)
  | .other notFolder notFile gathers => by
      rw [List.flatMap_cons, pathsOf_eq_nil notFolder notFile]
      exact gathers.sameForKeys tree

theorem Visits.perm
    (tree : disk.IsTree)
    {around : Path}
    {names : List Text}
    {found : List Path} :
    disk.Visits around names found → found.Perm (names.flatMap (disk.pathsOfEntry around))
  | .done => .refl []
  | .hidden isHidden visits => by
      rw [List.flatMap_cons, pathsOfEntry, if_pos isHidden]
      exact visits.perm tree
  | .folder visible isFolder lists visits => by
      rw [List.flatMap_cons, pathsOfEntry, if_neg (by simp [visible])]
      refine List.Perm.append ?_ (visits.perm tree)
      rw [lists.eq_listFiles tree, listFiles, List.flatMap_singleton]
      exact List.mergeSort_perm _ _
  | .file visible notFolder isFile visits => by
      rw [List.flatMap_cons, pathsOfEntry, if_neg (by simp [visible]), pathsOf_of_isFile isFile]
      exact (visits.perm tree).cons _
  | .other visible notFolder notFile visits => by
      rw [List.flatMap_cons, pathsOfEntry, if_neg (by simp [visible]),
        pathsOf_eq_nil notFolder notFile]
      exact visits.perm tree

end

/-! ## There are runs -/

/-- Visiting one entry and then others is visiting them one after the other. -/
theorem Visits.cons
    {around : Path}
    {name : Text}
    {names : List Text}
    {found others : List Path}
    (first : disk.Visits around [name] found)
    (rest : disk.Visits around names others) :
    disk.Visits around (name :: names) (found ++ others) := by
  cases first with
  | hidden isHidden none =>
      cases none
      exact .hidden isHidden rest
  | folder visible isFolder lists none =>
      cases none
      rw [List.append_nil]
      exact .folder visible isFolder lists rest
  | file visible notFolder isFile none =>
      cases none
      exact .file visible notFolder isFile rest
  | other visible notFolder notFile none =>
      cases none
      exact .other visible notFolder notFile rest

theorem exists_visits_of_forall_mem
    {around : Path}
    {names : List Text}
    (each : ∀ name ∈ names, ∃ found, disk.Visits around [name] found) :
    ∃ found, disk.Visits around names found := by
  induction names with
  | nil => exact ⟨[], .done⟩
  | cons name names inductionHypothesis =>
      rw [List.forall_mem_cons] at each
      obtain ⟨⟨found, first⟩, others⟩ := each
      obtain ⟨paths, rest⟩ := inductionHypothesis others
      exact ⟨_, first.cons rest⟩

/-- Every entry of a folder can be visited. -/
theorem exists_visits_singleton
    {around : Path}
    {inner rest : Folder}
    (isFolder : disk.folder? around = some inner)
    (named : rest.HasFileNames)
    (distinct : rest.HasDistinctNames)
    (entries : HasEntriesOf inner rest) :
    ∀ name ∈ rest.names, ∃ found, disk.Visits around [name] found := by
  induction rest generalizing around inner with
  | empty => exact List.forall_mem_nil _
  | file name content others inductionHypothesis =>
      obtain ⟨found, entries⟩ := HasEntriesOf.of_cons (.file content) distinct.1 entries
      refine List.forall_mem_cons.mpr
        ⟨?_, inductionHypothesis isFolder named.2 distinct.2 entries⟩
      cases hidden : Folder.isHidden name with
      | true => exact ⟨[], .hidden hidden .done⟩
      | false =>
          have names := (node_join_eq_ok_iff isFolder named.1 hidden).mpr found
          refine ⟨_, .file hidden ?_ (isFile_eq_true_iff.mpr ⟨content, names⟩) .done⟩
          simp [Disk.isFolder, folder?, names]
  | folder name below others belowHypothesis inductionHypothesis =>
      obtain ⟨found, entries⟩ := HasEntriesOf.of_cons (.folder below) distinct.1 entries
      refine List.forall_mem_cons.mpr
        ⟨?_, inductionHypothesis isFolder named.2.2 distinct.2.2 entries⟩
      cases hidden : Folder.isHidden name with
      | true => exact ⟨[], .hidden hidden .done⟩
      | false =>
          have isBelow := folder?_eq_some_iff.mpr
            ((node_join_eq_ok_iff isFolder named.1 hidden).mpr found)
          obtain ⟨inside, visits⟩ := exists_visits_of_forall_mem <|
            belowHypothesis isBelow named.2.1 distinct.2.1 fun _ _ => rfl
          exact ⟨_, .folder hidden (isFolder_eq_true_iff.mpr ⟨below, isBelow⟩)
            (.sorted (.folder isBelow (.refl _) visits .done)) .done⟩

/-- The entries of a folder can be visited in every order. -/
theorem exists_visits
    (tree : disk.IsTree)
    {around : Path}
    {inner : Folder}
    (isFolder : disk.folder? around = some inner)
    {names : List Text}
    (enumerates : names.Perm inner.names) :
    ∃ found, disk.Visits around names found := by
  obtain ⟨named, distinct⟩ := tree.of_folder? isFolder
  exact exists_visits_of_forall_mem fun name member =>
    exists_visits_singleton isFolder named distinct (fun _ _ => rfl) name
      (enumerates.mem_iff.mp member)

theorem exists_gathers (tree : disk.IsTree) (inputs : List Path) :
    ∃ found, disk.Gathers inputs found := by
  induction inputs with
  | nil => exact ⟨[], .done⟩
  | cons input inputs inductionHypothesis =>
      obtain ⟨others, gathers⟩ := inductionHypothesis
      cases isFolder : disk.folder? input with
      | some inner =>
          obtain ⟨found, visits⟩ := exists_visits tree isFolder (.refl _)
          exact ⟨_, .folder isFolder (.refl _) visits gathers⟩
      | none =>
          have notFolder : disk.isFolder input = false := by rw [Disk.isFolder, isFolder]; rfl
          cases isFile : disk.isFile input with
          | true => exact ⟨_, .file notFolder isFile gathers⟩
          | false => exact ⟨_, .other notFolder isFile gathers⟩

open Classical in
/-- However the entries of folders are enumerated, listing inputs goes through and comes to one list.
It is ordered by the components of paths, and it holds every file once for each input that reaches
it. -/
theorem lists_sorted_reached_files
    {disk : Disk}
    (tree : disk.IsTree)
    (inputs : List Path) :
    (∀ around inner names, disk.folder? around = some inner → names.Perm inner.names →
        ∃ found, disk.Visits around names found) ∧
      (∀ files, disk.Lists inputs files ↔ files = disk.listFiles inputs) ∧
      (disk.listFiles inputs).Pairwise Path.ComesFirst ∧
      ∀ path, (disk.listFiles inputs).count path =
        inputs.countP fun input => disk.Reaches input path := by
  refine ⟨fun _ _ _ isFolder => exists_visits tree isFolder,
    fun files => ⟨Lists.eq_listFiles tree, ?_⟩, ?_, fun path => count_listFiles tree inputs path⟩
  · rintro rfl
    obtain ⟨found, gathers⟩ := exists_gathers tree inputs
    have lists := Lists.sorted gathers
    rwa [lists.eq_listFiles tree] at lists
  · exact (List.pairwise_mergeSort Path.le_trans Path.le_total _).imp Path.le_eq_true_iff.mp

/-- Names that sort otherwise by characters, hidden names on the way to a file, an input that is a
hidden file, and a file that two inputs reach. -/
theorem lists_sorted_reached_files_overlapping :
    let disk : Disk :=
      ⟨.folder "t".toList
        (.file "a-b".toList .empty (.file ".h".toList .empty (.folder "a".toList
          (.folder ".g".toList (.file "x".toList .empty .empty)
            (.file "b".toList .empty (.file ".c".toList .empty .empty))) .empty))) .empty,
        ["t".toList]⟩
    let inputs : List Path := [⟨".".toList⟩, ⟨".h".toList⟩, ⟨"a".toList⟩, ⟨"./a".toList⟩]
    disk.IsTree ∧ ∀ files, disk.Lists inputs files ↔
      files = [⟨"./a/b".toList⟩, ⟨"./a/b".toList⟩, ⟨"./a-b".toList⟩, ⟨".h".toList⟩,
        ⟨"a/b".toList⟩] := by
  intro disk inputs
  have tree : disk.IsTree := by decide
  have listed : disk.listFiles inputs = [⟨"./a/b".toList⟩, ⟨"./a/b".toList⟩, ⟨"./a-b".toList⟩,
      ⟨".h".toList⟩, ⟨"a/b".toList⟩] := by cbv
  refine ⟨tree, fun files => ?_⟩
  rw [(lists_sorted_reached_files tree inputs).2.1 files, listed]

end Disk
end OutputThreading
