import OutputThreading.Files.Listing
import OutputThreading.Proofs.Files.Disk

/-!
# Listed files

On a disk whose names are file names, the path of a listed file leads below the location of its
input, name by name.  So it can be followed to its file.
-/

namespace OutputThreading

/-- The name is not empty and has no slash in it. -/
def Text.IsFileName (name : Text) : Prop :=
  name ≠ [] ∧ '/' ∉ name

instance (name : Text) : Decidable name.IsFileName :=
  inferInstanceAs (Decidable (_ ∧ _))

/-! ## The parts of a longer path -/

namespace Path

variable {name : Text}

theorem filter_splitOn_append_slash (front behind : Text) :
    ((front ++ '/' :: behind).splitOn '/').filter (fun part => !part.isEmpty) =
      (front.splitOn '/').filter (fun part => !part.isEmpty) ++
        (behind.splitOn '/').filter fun part => !part.isEmpty := by
  rw [List.splitOn_eq_splitOnP, List.splitOn_eq_splitOnP, List.splitOn_eq_splitOnP,
    List.splitOnP_append_cons front behind (by simp), List.filter_append]

theorem filter_splitOn_of_isFileName (isName : name.IsFileName) :
    (name.splitOn '/').filter (fun part => !part.isEmpty) = [name] := by
  rw [List.splitOn_eq_singleton isName.2]
  simp [isName.1]

/-- A name behind a path is one more part. -/
theorem parts_join (path : Path) (isName : name.IsFileName) :
    (path.join name).parts = path.parts ++ [name] := by
  unfold join
  split
  next ends =>
    rw [Bool.or_eq_true, List.isEmpty_iff] at ends
    unfold parts
    rcases ends with empty | slash
    · rw [empty]
      exact filter_splitOn_of_isFileName isName
    · unfold endsInSlash at slash
      rw [decide_eq_true_eq] at slash
      obtain ⟨front, text_eq⟩ := List.getLast?_eq_some_iff.mp slash
      have behind := filter_splitOn_append_slash front []
      rw [text_eq, List.append_assoc, List.singleton_append, filter_splitOn_append_slash,
        filter_splitOn_of_isFileName isName, behind]
      simp
  next =>
    unfold parts
    rw [List.append_assoc, List.singleton_append, filter_splitOn_append_slash,
      filter_splitOn_of_isFileName isName]

theorem isAbsolute_join (path : Path) (isName : name.IsFileName) :
    (path.join name).isAbsolute = path.isAbsolute := by
  obtain ⟨c, rest, name_eq⟩ := List.exists_cons_of_ne_nil isName.1
  have first : c ≠ '/' := by
    rintro rfl
    exact isName.2 (by simp [name_eq])
  unfold join isAbsolute
  cases written : path.text with
  | nil => simp [name_eq, first]
  | cons d text => split <;> simp

theorem endsInSlash_join (path : Path) (isName : name.IsFileName) :
    (path.join name).endsInSlash = false := by
  obtain ⟨front, c, name_eq⟩ := List.eq_nil_or_concat name |>.resolve_left isName.1
  have last : c ≠ '/' := by
    rintro rfl
    exact isName.2 (by simp [name_eq])
  have ends (front : Text) : (front ++ name).getLast? = some c := by
    rw [name_eq, List.concat_eq_append, ← List.append_assoc, List.getLast?_concat]
  unfold join endsInSlash
  rw [decide_eq_false_iff_not]
  split <;> rw [ends, Option.some.injEq] <;> exact last

variable {names : List Text}

theorem text_join_ne_nil {path : Path} (nonempty : path.text ≠ []) (name : Text) :
    (path.join name).text ≠ [] := by
  unfold join
  split <;> simp [nonempty]

theorem text_descend_ne_nil {path : Path} (nonempty : path.text ≠ []) (names : List Text) :
    (path.descend names).text ≠ [] := by
  unfold descend
  induction names generalizing path with
  | nil => exact nonempty
  | cons name names inductionHypothesis =>
      exact inductionHypothesis (text_join_ne_nil nonempty name)

theorem parts_descend (path : Path) (areNames : ∀ name ∈ names, name.IsFileName) :
    (path.descend names).parts = path.parts ++ names := by
  unfold descend
  induction names generalizing path with
  | nil => simp
  | cons name names inductionHypothesis =>
      obtain ⟨first, others⟩ := List.forall_mem_cons.mp areNames
      rw [List.foldl_cons, inductionHypothesis _ others, parts_join path first, List.append_assoc,
        List.singleton_append]

theorem isAbsolute_descend (path : Path) (areNames : ∀ name ∈ names, name.IsFileName) :
    (path.descend names).isAbsolute = path.isAbsolute := by
  unfold descend
  induction names generalizing path with
  | nil => rfl
  | cons name names inductionHypothesis =>
      obtain ⟨first, others⟩ := List.forall_mem_cons.mp areNames
      rw [List.foldl_cons, inductionHypothesis _ others, isAbsolute_join path first]

theorem endsInSlash_descend
    (path : Path)
    (areNames : ∀ name ∈ names, name.IsFileName)
    (further : names ≠ []) :
    (path.descend names).endsInSlash = false := by
  obtain ⟨front, name, rfl⟩ := List.eq_nil_or_concat names |>.resolve_left further
  unfold descend
  rw [List.concat_eq_append, List.foldl_append, List.foldl_cons, List.foldl_nil]
  exact endsInSlash_join _ (areNames name (by simp))

end Path

/-! ## Folders with proper names -/

namespace Folder

/-- If a folder has the property, so do its other entries without the first one, and so do the
folders in it. -/
structure Hereditary (property : Folder → Prop) : Prop where
  /-- The entries behind a file have the property. -/
  file : ∀ {name content others}, property (.file name content others) → property others
  /-- A folder in a folder and the entries behind it have the property. -/
  folder : ∀ {name inner others}, property (.folder name inner others) →
    property inner ∧ property others

namespace Hereditary

variable {property : Folder → Prop} {root inner : Folder}

theorem of_find?
    (hereditary : Hereditary property)
    (holds : property root)
    {name : Text}
    (found : root.find? name = some (.folder inner)) :
    property inner := by
  induction root with
  | empty => cases found
  | file other content others inductionHypothesis =>
      rw [find?] at found
      split at found
      next => cases found
      next => exact inductionHypothesis (hereditary.file holds) found
  | folder other below others _ inductionHypothesis =>
      rw [find?] at found
      split at found
      next =>
        rw [← Node.folder.inj (Option.some.inj found)]
        exact (hereditary.folder holds).1
      next => exact inductionHypothesis (hereditary.folder holds).2 found

theorem of_node?
    (hereditary : Hereditary property)
    (holds : property root)
    {location : List Text}
    (found : root.node? location = some (.folder inner)) :
    property inner := by
  induction location generalizing root with
  | nil =>
      rw [← Node.folder.inj (Option.some.inj found)]
      exact holds
  | cons name location inductionHypothesis =>
      rw [node?_cons] at found
      obtain ⟨node, first, found⟩ := Option.bind_eq_some_iff.mp found
      cases node with
      | file content => cases location <;> simp [Node.below?] at found
      | folder below => exact inductionHypothesis (hereditary.of_find? holds first) found

end Hereditary

/-- All names in the folder and below are file names. -/
def HasFileNames : Folder → Prop
  | .empty => True
  | .file name _ others => name.IsFileName ∧ others.HasFileNames
  | .folder name inner others => name.IsFileName ∧ inner.HasFileNames ∧ others.HasFileNames

instance decidableHasFileNames : (root : Folder) → Decidable root.HasFileNames
  | .empty => inferInstanceAs (Decidable True)
  | .file name _ others =>
      have := decidableHasFileNames others
      inferInstanceAs (Decidable (name.IsFileName ∧ others.HasFileNames))
  | .folder name inner others =>
      have := decidableHasFileNames inner
      have := decidableHasFileNames others
      inferInstanceAs (Decidable (name.IsFileName ∧ inner.HasFileNames ∧ others.HasFileNames))

theorem hereditary_hasFileNames : Hereditary HasFileNames :=
  ⟨fun named => named.2, fun named => named.2⟩

/-- A listed file is listed by names of which none is hidden. -/
theorem names_of_mem_visibleFiles
    {root : Folder}
    (named : root.HasFileNames)
    {names : List Text}
    (member : names ∈ root.visibleFiles) :
    names ≠ [] ∧ ∀ name ∈ names, name.IsFileName ∧ isHidden name = false := by
  induction root generalizing names with
  | empty => cases member
  | file name content others inductionHypothesis =>
      rw [visibleFiles, List.mem_append] at member
      rcases member with first | member
      · split at first
        next => cases first
        next visible =>
          rw [List.mem_singleton.mp first]
          simpa [visible] using named.1
      · exact inductionHypothesis named.2 member
  | folder name inner others innerHypothesis inductionHypothesis =>
      rw [visibleFiles, List.mem_append] at member
      rcases member with first | member
      · split at first
        next => cases first
        next visible =>
          obtain ⟨below, listed, rfl⟩ := List.mem_map.mp first
          refine ⟨by simp, List.forall_mem_cons.mpr ⟨⟨named.1, by simpa using visible⟩, ?_⟩⟩
          exact (innerHypothesis named.2.1 listed).2
      · exact inductionHypothesis named.2.2 member

theorem move_of_isHidden_eq_false
    {name : Text}
    (visible : isHidden name = false)
    (location : List Text) :
    Disk.move location name = location ++ [name] := by
  have notHere : name ≠ Path.here := by
    rintro rfl
    cases visible
  have notUp : name ≠ Path.up := by
    rintro rfl
    cases visible
  rw [Disk.move, if_neg notHere, if_neg notUp]

end Folder

/-! ## Paths of listed files -/

namespace Disk

variable {disk : Disk}

/-- Names lead on from a folder, and they can be followed to whatever stands there. -/
theorem follow_names
    {names : List Text}
    (visible : ∀ name ∈ names, Folder.isHidden name = false)
    (location : List Text) :
    names.foldl move location = location ++ names ∧
      (∀ node, disk.root.node? (location ++ names) = some node →
        disk.follow location names = .ok (location ++ names)) := by
  induction names generalizing location with
  | nil => simp [follow]
  | cons name names inductionHypothesis =>
      obtain ⟨first, others⟩ := List.forall_mem_cons.mp visible
      obtain ⟨moves, follows⟩ := inductionHypothesis others (location ++ [name])
      rw [List.append_cons]
      rw [List.foldl_cons, Folder.move_of_isHidden_eq_false first]
      refine ⟨moves, fun node found => ?_⟩
      rw [follow_cons_eq_ok_iff, Folder.move_of_isHidden_eq_false first]
      refine ⟨?_, follows node found⟩
      rw [List.append_assoc] at found
      exact Folder.isFolder_of_node?_append found (by simp)

/-- Names behind a path lead on from where the path leads to. -/
theorem locationOf_descend
    (input : Path)
    {names : List Text}
    (proper : ∀ name ∈ names, name.IsFileName ∧ Folder.isHidden name = false) :
    disk.start (input.descend names) = disk.start input ∧
      disk.locationOf (input.descend names) = disk.locationOf input ++ names := by
  have areNames : ∀ name ∈ names, name.IsFileName := fun name member => (proper name member).1
  have startsAlike : disk.start (input.descend names) = disk.start input := by
    unfold start
    rw [input.isAbsolute_descend areNames]
  refine ⟨startsAlike, ?_⟩
  rw [← (@follow_names disk names (fun name member => (proper name member).2) _).1]
  unfold locationOf
  rw [startsAlike, input.parts_descend areNames, List.foldl_append]

/-- Names behind the path of a folder can be followed to whatever they lead to. -/
theorem locate_descend
    {input : Path}
    (located : disk.locate input = .ok (disk.locationOf input))
    {names : List Text}
    (further : names ≠ [])
    (proper : ∀ name ∈ names, name.IsFileName ∧ Folder.isHidden name = false)
    {node : Node}
    (found : disk.root.node? (disk.locationOf input ++ names) = some node) :
    disk.locate (input.descend names) = .ok (disk.locationOf (input.descend names)) := by
  have areNames : ∀ name ∈ names, name.IsFileName := fun name member => (proper name member).1
  obtain ⟨startsAlike, place⟩ := @locationOf_descend disk input names proper
  rw [locate_eq_ok_iff] at located ⊢
  obtain ⟨between, followed, rest⟩ := follow_append_eq_ok_iff.mp located.2
  have arrives : between = disk.locationOf input := by
    rw [eq_foldl_of_follow followed]
    rfl
  rw [place, startsAlike, input.parts_descend areNames, input.endsInSlash_descend areNames further]
  simp only [Bool.false_eq_true, if_false, List.append_nil]
  rw [follow_append_eq_ok_iff]
  refine ⟨Path.text_descend_ne_nil located.1 names, _, followed, ?_⟩
  rw [arrives]
  exact (follow_names (fun name member => (proper name member).2) _).2 node found

/-- Below a folder, a path names what the names behind the path of the folder lead to. -/
theorem node_descend_eq_ok_iff
    {input : Path}
    {inner : Folder}
    (isFolder : disk.node input = .ok (.folder inner))
    {names : List Text}
    (further : names ≠ [])
    (proper : ∀ name ∈ names, name.IsFileName ∧ Folder.isHidden name = false)
    {node : Node} :
    disk.node (input.descend names) = .ok node ↔ inner.node? names = some node := by
  obtain ⟨located, there⟩ := node_eq_ok_iff.mp isFolder
  have below : disk.root.node? (disk.locationOf input ++ names) = inner.node? names := by
    rw [Folder.node?_append, there]
    rfl
  rw [node_eq_ok_iff, (locationOf_descend input proper).2, below]
  refine ⟨And.right, fun found => ⟨?_, found⟩⟩
  rw [← (locationOf_descend input proper).2]
  exact locate_descend located further proper (below.trans found)

/-- The path of a listed file can be followed if there is a file where it leads to. -/
theorem leadsToFile_of_mem_filesOf
    (named : disk.root.HasFileNames)
    {input : Path}
    {names : List Text}
    (member : names ∈ disk.filesOf input) :
    disk.LeadsToFile (input.descend names) := by
  unfold filesOf at member
  split at member
  next content isFile =>
    rw [List.mem_singleton.mp member]
    exact fun _ _ => (node_eq_ok_iff.mp isFile).1
  next inner isFolder =>
    obtain ⟨located, there⟩ := node_eq_ok_iff.mp isFolder
    obtain ⟨further, proper⟩ := Folder.names_of_mem_visibleFiles
      (Folder.hereditary_hasFileNames.of_node? named there) member
    intro content found
    rw [(locationOf_descend input proper).2] at found
    exact locate_descend located further proper found
  next => cases member

end Disk
end OutputThreading
