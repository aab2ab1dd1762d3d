import OutputThreading.Proofs.Files.Order

/-!
# The files that an input reaches

In a tree of folders in which no folder has two entries with one name, the files that are listed
below a folder are those that no hidden name leads to, each of them once
(`Folder.mem_visibleFiles_iff`, `Folder.nodup_visibleFiles`).  So an input stands for exactly the
files that it reaches (`Disk.mem_pathsOf_iff`), and no two of them have the same place in the order
of paths.
-/

namespace OutputThreading

/-! ## Trees of folders -/

namespace Folder

/-- The names of the entries of a folder, as they are enumerated. -/
def names : Folder → List Text
  | .empty => []
  | .file name _ others => name :: others.names
  | .folder name _ others => name :: others.names

/-- No two entries have one name, neither in the folder nor below. -/
def HasDistinctNames : Folder → Prop
  | .empty => True
  | .file name _ others => name ∉ others.names ∧ others.HasDistinctNames
  | .folder name inner others =>
      name ∉ others.names ∧ inner.HasDistinctNames ∧ others.HasDistinctNames

instance decidableHasDistinctNames : (root : Folder) → Decidable root.HasDistinctNames
  | .empty => inferInstanceAs (Decidable True)
  | .file name _ others =>
      have := decidableHasDistinctNames others
      inferInstanceAs (Decidable (name ∉ others.names ∧ others.HasDistinctNames))
  | .folder name inner others =>
      have := decidableHasDistinctNames inner
      have := decidableHasDistinctNames others
      inferInstanceAs
        (Decidable (name ∉ others.names ∧ inner.HasDistinctNames ∧ others.HasDistinctNames))

theorem find?_eq_none_iff {root : Folder} {name : Text} :
    root.find? name = none ↔ name ∉ root.names := by
  induction root with
  | empty => simp [find?, names]
  | file other content others inductionHypothesis =>
      rw [find?, names, List.mem_cons, not_or, ← inductionHypothesis]
      split
      next same => simp [same]
      next different => simp [Ne.symm different]
  | folder other inner others _ inductionHypothesis =>
      rw [find?, names, List.mem_cons, not_or, ← inductionHypothesis]
      split
      next same => simp [same]
      next different => simp [Ne.symm different]

theorem node?_eq_none_of_notMem_names
    {root : Folder}
    {name : Text}
    (absent : name ∉ root.names)
    (location : List Text) :
    root.node? (name :: location) = none := by
  rw [node?_cons, find?_eq_none_iff.mpr absent, Option.bind_none]

theorem node?_file_cons
    (name : Text)
    (content : ByteArray)
    (others : Folder)
    (first : Text)
    (location : List Text) :
    (file name content others).node? (first :: location) =
      if name = first then (Node.file content).below? location
      else others.node? (first :: location) := by
  rw [node?_cons, find?, node?_cons]
  split <;> rfl

theorem node?_folder_cons
    (name : Text)
    (inner others : Folder)
    (first : Text)
    (location : List Text) :
    (folder name inner others).node? (first :: location) =
      if name = first then inner.node? location else others.node? (first :: location) := by
  rw [node?_cons, find?, node?_cons]
  split <;> rfl

theorem hereditary_hasDistinctNames : Hereditary HasDistinctNames :=
  ⟨fun distinct => distinct.2, fun distinct => distinct.2⟩

/-- There is a file at the location. -/
def IsFile (root : Folder) (location : List Text) : Prop :=
  ∃ content, root.node? location = some (.file content)

theorem not_isFile_nil (root : Folder) : ¬root.IsFile [] := by
  rintro ⟨content, found⟩
  cases found

theorem nil_notMem_visibleFiles (root : Folder) : [] ∉ root.visibleFiles := by
  induction root with
  | empty => simp [visibleFiles]
  | file name content others inductionHypothesis =>
      cases hidden : isHidden name <;> simp [visibleFiles, hidden, inductionHypothesis]
  | folder name inner others _ inductionHypothesis =>
      cases hidden : isHidden name <;> simp [visibleFiles, hidden, inductionHypothesis]

/-- The files that are listed are those to which no hidden name leads. -/
theorem mem_visibleFiles_iff
    {root : Folder}
    (distinct : root.HasDistinctNames)
    {location : List Text} :
    location ∈ root.visibleFiles ↔
      root.IsFile location ∧ ∀ name ∈ location, isHidden name = false := by
  induction root generalizing location with
  | empty => cases location <;> simp [visibleFiles, IsFile, node?, find?]
  | file name content others inductionHypothesis =>
      cases location with
      | nil => simp [nil_notMem_visibleFiles, not_isFile_nil]
      | cons first rest =>
          rw [visibleFiles, List.mem_append, inductionHypothesis distinct.2, IsFile, IsFile,
            node?_file_cons]
          by_cases same : name = first
          · subst same
            cases hidden : isHidden name <;> cases rest <;>
              simp [hidden, Node.below?, node?_eq_none_of_notMem_names distinct.1]
          · cases isHidden name <;> simp [same, Ne.symm same]
  | folder name inner others innerHypothesis inductionHypothesis =>
      cases location with
      | nil => simp [nil_notMem_visibleFiles, not_isFile_nil]
      | cons first rest =>
          rw [visibleFiles, List.mem_append, inductionHypothesis distinct.2.2, IsFile, IsFile,
            node?_folder_cons]
          by_cases same : name = first
          · subst same
            cases hidden : isHidden name <;>
              simp [hidden, node?_eq_none_of_notMem_names distinct.1,
                innerHypothesis distinct.2.1, IsFile]
          · cases isHidden name <;> simp [same]

/-- Every file is listed once. -/
theorem nodup_visibleFiles {root : Folder} (distinct : root.HasDistinctNames) :
    root.visibleFiles.Nodup := by
  -- what stands at a name is not found among the other entries
  have apart {others : Folder} (isTree : others.HasDistinctNames) {name : Text}
      (absent : name ∉ others.names) (location : List Text) :
      name :: location ∉ others.visibleFiles := by
    rw [mem_visibleFiles_iff isTree, IsFile, node?_eq_none_of_notMem_names absent]
    simp
  induction root with
  | empty => exact List.nodup_nil
  | file name content others inductionHypothesis =>
      rw [visibleFiles, List.nodup_append]
      refine ⟨by split <;> simp, inductionHypothesis distinct.2, ?_⟩
      rintro location isFirst _ isOther rfl
      split at isFirst
      next => cases isFirst
      next =>
        rw [List.mem_singleton.mp isFirst] at isOther
        exact apart distinct.2 distinct.1 [] isOther
  | folder name inner others innerHypothesis inductionHypothesis =>
      rw [visibleFiles, List.nodup_append]
      refine ⟨?_, inductionHypothesis distinct.2.2, ?_⟩
      · split
        next => exact List.nodup_nil
        next => exact (innerHypothesis distinct.2.1).map fun _ _ => (List.cons.inj · |>.2)
      · rintro location isInner _ isOther rfl
        split at isInner
        next => cases isInner
        next =>
          obtain ⟨below, _, rfl⟩ := List.mem_map.mp isInner
          exact apart distinct.2.2 distinct.1 below isOther

end Folder

/-! ## Files that an input stands for -/

namespace Disk

variable {disk : Disk} {input path : Path} {inner : Folder}

/-- A disk holds a tree of folders: all names are file names, and no folder has two entries with one
name. -/
structure IsTree (disk : Disk) : Prop where
  /-- All names are file names. -/
  named : disk.root.HasFileNames
  /-- Entries of one folder have different names. -/
  distinct : disk.root.HasDistinctNames

instance (disk : Disk) : Decidable disk.IsTree :=
  decidable_of_iff (disk.root.HasFileNames ∧ disk.root.HasDistinctNames)
    ⟨fun ⟨named, distinct⟩ => ⟨named, distinct⟩, fun ⟨named, distinct⟩ => ⟨named, distinct⟩⟩

/-- The input reaches the file at the path: it names the file itself, hidden or not, or a folder from
which names that are not hidden lead to the file. -/
inductive Reaches (disk : Disk) (input : Path) : (path : Path) → Prop
  /-- The input names a file. -/
  | itself (isFile : disk.isFile input = true) : Reaches disk input input
  /-- The file is below a folder that the input names. -/
  | below
      {inner : Folder}
      {names : List Text}
      (isFolder : disk.folder? input = some inner)
      (isFile : inner.IsFile names)
      (visible : ∀ name ∈ names, Folder.isHidden name = false) :
      Reaches disk input (input.descend names)

theorem isFile_eq_true_iff :
    disk.isFile path = true ↔ ∃ content, disk.node path = .ok (.file content) := by
  unfold isFile
  split
  next content isFile => simp [isFile]
  next other => simpa using other

theorem folder?_eq_some_iff :
    disk.folder? path = some inner ↔ disk.node path = .ok (.folder inner) := by
  unfold folder?
  split
  next found isFolder => simp [isFolder]
  next other => simpa using other inner

theorem isFolder_eq_true_iff :
    disk.isFolder path = true ↔ ∃ inner, disk.folder? path = some inner :=
  Option.isSome_iff_exists

theorem pathsOf_of_isFile (isFile : disk.isFile input = true) : disk.pathsOf input = [input] := by
  obtain ⟨content, found⟩ := isFile_eq_true_iff.mp isFile
  rw [pathsOf, filesOf, found]
  rfl

theorem pathsOf_of_folder? (isFolder : disk.folder? input = some inner) :
    disk.pathsOf input = inner.visibleFiles.map input.descend := by
  rw [pathsOf, filesOf, folder?_eq_some_iff.mp isFolder]

theorem pathsOf_eq_nil
    (notFolder : disk.isFolder input = false)
    (notFile : disk.isFile input = false) :
    disk.pathsOf input = [] := by
  unfold isFolder folder? at notFolder
  unfold isFile at notFile
  unfold pathsOf filesOf
  split
  next found => simp [found] at notFile
  next found => simp [found] at notFolder
  next => rfl

/-- An input stands for what is below it, for itself, or for nothing. -/
theorem pathsOf_cases (disk : Disk) (input : Path) :
    (∃ inner, disk.folder? input = some inner ∧
        disk.pathsOf input = inner.visibleFiles.map input.descend) ∨
      (disk.isFile input = true ∧ disk.pathsOf input = [input]) ∨ disk.pathsOf input = [] := by
  cases isFolder : disk.folder? input with
  | some inner => exact .inl ⟨inner, rfl, pathsOf_of_folder? isFolder⟩
  | none =>
      cases isFile : disk.isFile input with
      | true => exact .inr (.inl ⟨rfl, pathsOf_of_isFile isFile⟩)
      | false => exact .inr (.inr (pathsOf_eq_nil (by rw [Disk.isFolder, isFolder]; rfl) isFile))

/-- Folders of a tree are trees. -/
theorem IsTree.of_folder?
    (tree : disk.IsTree)
    (isFolder : disk.folder? input = some inner) :
    inner.HasFileNames ∧ inner.HasDistinctNames := by
  have there := (node_eq_ok_iff.mp (folder?_eq_some_iff.mp isFolder)).2
  exact ⟨Folder.hereditary_hasFileNames.of_node? tree.named there,
    Folder.hereditary_hasDistinctNames.of_node? tree.distinct there⟩

/-- The files that an input stands for are those that it reaches. -/
theorem mem_pathsOf_iff (tree : disk.IsTree) :
    path ∈ disk.pathsOf input ↔ disk.Reaches input path := by
  constructor
  · intro member
    rcases disk.pathsOf_cases input with ⟨inner, isFolder, paths⟩ | ⟨isFile, paths⟩ | none
    · rw [paths] at member
      obtain ⟨names, listed, rfl⟩ := List.mem_map.mp member
      have ⟨isFile, visible⟩ :=
        (Folder.mem_visibleFiles_iff (tree.of_folder? isFolder).2).mp listed
      exact .below isFolder isFile visible
    · rw [paths, List.mem_singleton] at member
      subst member
      exact .itself isFile
    · rw [none] at member
      cases member
  · rintro (isFile | ⟨isFolder, isFile, visible⟩)
    · rw [pathsOf_of_isFile isFile]
      exact List.mem_singleton_self input
    · rw [pathsOf_of_folder? isFolder]
      exact List.mem_map_of_mem
        ((Folder.mem_visibleFiles_iff (tree.of_folder? isFolder).2).mpr ⟨isFile, visible⟩)

/-- No two files that an input stands for have the same key. -/
theorem nodup_sortKey_pathsOf (tree : disk.IsTree) (input : Path) :
    ((disk.pathsOf input).map Path.sortKey).Nodup := by
  rcases disk.pathsOf_cases input with ⟨inner, isFolder, paths⟩ | ⟨_, paths⟩ | none
  · obtain ⟨named, distinct⟩ := tree.of_folder? isFolder
    rw [paths, List.map_map]
    refine (Folder.nodup_visibleFiles distinct).map_on fun names isIn others isInToo same => ?_
    exact Path.names_eq_of_sortKey_descend_eq (Folder.names_of_mem_visibleFiles named isIn).2
      (Folder.names_of_mem_visibleFiles named isInToo).2 same
  · simp [paths]
  · simp [none]

/-- A path is listed once for each input that reaches it. -/
theorem count_listFiles
    (tree : disk.IsTree)
    (inputs : List Path)
    (path : Path)
    [DecidablePred fun input => disk.Reaches input path] :
    (disk.listFiles inputs).count path = inputs.countP fun input => disk.Reaches input path := by
  have once (input : Path) :
      (disk.pathsOf input).count path = if disk.Reaches input path then 1 else 0 := by
    have distinct : (disk.pathsOf input).Nodup := (nodup_sortKey_pathsOf tree input).of_map
    rw [distinct.count, if_congr (mem_pathsOf_iff tree) rfl rfl]
  rw [listFiles, (List.mergeSort_perm _ _).count_eq]
  induction inputs with
  | nil => rfl
  | cons input inputs inductionHypothesis =>
      rw [List.flatMap_cons, List.count_append, inductionHypothesis, once, List.countP_cons,
        Nat.add_comm]
      simp

end Disk
end OutputThreading
