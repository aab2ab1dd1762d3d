import OutputThreading.Files.Disk
import OutputThreading.Proofs.Block

/-!
# What file operations leave alone

Making folders and writing files only ever add folders, and they change no file but the one that is
written.  `Folder.WritesOnly` says this of a folder before and after, and `Disk.WritesOnly` of a
disk.  It carries over from single operations to whole runs.
-/

namespace OutputThreading

/-! ## Entries of a folder -/

namespace Folder

@[simp] theorem find?_cons (name other : Text) (node : Node) (others : Folder) :
    (cons name node others).find? other = if name = other then some node else others.find? other := by
  cases node <;> rfl

@[simp] theorem find?_put (name other : Text) (node : Node) (root : Folder) :
    (root.put name node).find? other = if name = other then some node else root.find? other := by
  induction root with
  | empty => simp [put]
  | file entry content others inductionHypothesis =>
      unfold put
      by_cases same : entry = name
      · subst same
        simp only [if_true, find?_cons, find?]
        split <;> rfl
      · rw [if_neg same, find?, inductionHypothesis, find?]
        split <;> split <;> simp_all
  | folder entry inner others _ inductionHypothesis =>
      unfold put
      by_cases same : entry = name
      · subst same
        simp only [if_true, find?_cons, find?]
        split <;> rfl
      · rw [if_neg same, find?, inductionHypothesis, find?]
        split <;> split <;> simp_all

end Folder

/-- What stands at a location below a node. -/
def Node.below? (node : Node) (location : List Text) : Option Node :=
  match node with
  | .folder inner => inner.node? location
  | .file content => if location.isEmpty then some (.file content) else none

namespace Folder

theorem node?_cons (root : Folder) (name : Text) (location : List Text) :
    root.node? (name :: location) = (root.find? name).bind fun node => node.below? location := by
  rw [node?]
  cases root.find? name with
  | none => rfl
  | some node => cases node <;> rfl

theorem node?_append (root : Folder) (location more : List Text) :
    root.node? (location ++ more) = (root.node? location).bind fun node => node.below? more := by
  induction location generalizing root with
  | nil => rfl
  | cons name location inductionHypothesis =>
      rw [List.cons_append, node?_cons, node?_cons]
      cases root.find? name with
      | none => rfl
      | some node =>
          cases node with
          | folder inner => exact inductionHypothesis inner
          | file content => cases location <;> cases more <;> rfl

/-- There is a folder at the location. -/
def IsFolder (root : Folder) (location : List Text) : Prop :=
  ∃ inner, root.node? location = some (.folder inner)

theorem isFolder_nil (root : Folder) : root.IsFolder [] :=
  ⟨root, rfl⟩

/-- Whatever stands at a location stands in folders. -/
theorem isFolder_of_node?_append
    {root : Folder}
    {location more : List Text}
    {node : Node}
    (found : root.node? (location ++ more) = some node)
    (inside : more ≠ []) :
    root.IsFolder location := by
  rw [node?_append] at found
  obtain ⟨outer, outer_eq, found⟩ := Option.bind_eq_some_iff.mp found
  cases outer with
  | folder inner => exact ⟨inner, outer_eq⟩
  | file content =>
      cases more with
      | nil => exact absurd rfl inside
      | cons name more => cases found

theorem isFolder_of_append
    {root : Folder}
    {location more : List Text}
    (found : root.IsFolder (location ++ more)) :
    root.IsFolder location := by
  cases more with
  | nil => rwa [List.append_nil] at found
  | cons name more =>
      obtain ⟨inner, found⟩ := found
      exact isFolder_of_node?_append found (by simp)

/-! ## Writing files and making folders -/

/-- Only the files at the given locations may differ, and all folders are still there. -/
structure WritesOnly (written : List (List Text)) (before after : Folder) : Prop where
  /-- Elsewhere there are the same files. -/
  files : ∀ location, location ∉ written → ∀ content,
    after.node? location = some (.file content) ↔ before.node? location = some (.file content)
  /-- Folders stay. -/
  folders : ∀ location, before.IsFolder location → after.IsFolder location

namespace WritesOnly

theorem refl (root : Folder) : WritesOnly [] root root :=
  ⟨fun _ _ _ => Iff.rfl, fun _ found => found⟩

theorem trans
    {first second : List (List Text)}
    {before between after : Folder}
    (earlier : WritesOnly first before between)
    (later : WritesOnly second between after) :
    WritesOnly (first ++ second) before after := by
  refine ⟨fun location unwritten content => ?_, fun location found => ?_⟩
  · rw [List.mem_append, not_or] at unwritten
    rw [later.files location unwritten.2, earlier.files location unwritten.1]
  · exact later.folders location (earlier.folders location found)

end WritesOnly

/-- Putting a node changes what stands at its name only. -/
theorem writesOnly_put
    {written : List (List Text)}
    {root : Folder}
    {name : Text}
    {node : Node}
    (files : ∀ location, location ∉ written → ∀ content,
      node.below? location = some (.file content) ↔
        (root.find? name).bind (fun old => old.below? location) = some (.file content))
    (folders : ∀ location inner,
      (root.find? name).bind (fun old => old.below? location) = some (.folder inner) →
        ∃ result, node.below? location = some (.folder result)) :
    WritesOnly (written.map (name :: ·)) root (root.put name node) := by
  refine ⟨fun location unwritten content => ?_, fun location isFolder => ?_⟩
  · cases location with
    | nil => simp [node?]
    | cons other location =>
        rw [node?_cons, node?_cons, find?_put]
        by_cases same : name = other
        · subst same
          rw [if_pos rfl]
          refine files location (fun member => ?_) content
          exact unwritten (List.mem_map_of_mem member)
        · rw [if_neg same]
  · cases location with
    | nil => exact isFolder_nil _
    | cons other location =>
        obtain ⟨inner, found⟩ := isFolder
        unfold IsFolder
        rw [node?_cons] at found ⊢
        rw [find?_put]
        by_cases same : name = other
        · subst same
          rw [if_pos rfl]
          exact folders location inner found
        · exact ⟨inner, by rwa [if_neg same]⟩

/-- A file may be put where there is no folder. -/
theorem writesOnly_put_file
    {root : Folder}
    {name : Text}
    (vacant : ¬root.IsFolder [name])
    (content : ByteArray) :
    WritesOnly [[name]] root (root.put name (.file content)) := by
  have noFolder (inner : Folder) : root.find? name ≠ some (.folder inner) := by
    intro found
    apply vacant
    exact ⟨inner, by rw [node?_cons, found]; rfl⟩
  have written : [[name]] = [[]].map (name :: ·) := rfl
  rw [written]
  refine writesOnly_put (fun location unwritten other => ?_) fun location inner found => ?_
  · cases location with
    | nil => simp at unwritten
    | cons next location =>
        cases old : root.find? name with
        | none => simp [Node.below?]
        | some node =>
            cases node with
            | file earlier => simp [Node.below?]
            | folder inner => exact absurd old (noFolder inner)
  · obtain ⟨node, old, found⟩ := Option.bind_eq_some_iff.mp found
    cases node with
    | file earlier => cases location <;> simp [Node.below?] at found
    | folder other => exact absurd old (noFolder other)

/-- A folder may be put where there is nothing. -/
theorem writesOnly_put_folder
    {root : Folder}
    {name : Text}
    (vacant : root.find? name = none) :
    WritesOnly [] root (root.put name (.folder .empty)) := by
  have written : ([] : List (List Text)) = [].map (name :: ·) := rfl
  rw [written]
  refine writesOnly_put (fun location _ content => ?_) fun location inner found => ?_
  · rw [vacant]
    cases location <;> simp [Node.below?, node?, find?]
  · rw [vacant] at found
    cases found

theorem putAt_cons
    {root inner : Folder}
    {first : Text}
    (found : root.find? first = some (.folder inner))
    (node : Node)
    (location : List Text)
    (name : Text) :
    root.putAt node (first :: (location ++ [name])) =
      root.put first (.folder (inner.putAt node (location ++ [name]))) := by
  cases location <;> simp [putAt, found]

/-- What is put at a name in a folder that exists is found there, and what it leaves alone in that
folder it leaves alone altogether. -/
theorem putAt_in_folder
    {written : List (List Text)}
    {root inner : Folder}
    {location : List Text}
    {name : Text}
    {node : Node}
    (parent : root.node? location = some (.folder inner))
    (changed : WritesOnly written inner (inner.put name node)) :
    WritesOnly (written.map (location ++ ·)) root (root.putAt node (location ++ [name])) ∧
      (root.putAt node (location ++ [name])).node? (location ++ [name]) = some node := by
  induction location generalizing root with
  | nil =>
      obtain rfl : root = inner := Node.folder.inj (Option.some.inj parent)
      refine ⟨by simpa [putAt] using changed, ?_⟩
      rw [List.nil_append, putAt, node?_cons, find?_put, if_pos rfl]
      cases node <;> rfl
  | cons first location inductionHypothesis =>
      rw [node?_cons] at parent
      obtain ⟨outer, found, parent⟩ := Option.bind_eq_some_iff.mp parent
      cases outer with
      | file content => cases location <;> simp [Node.below?] at parent
      | folder outer =>
          obtain ⟨inside, stands⟩ := inductionHypothesis parent
          rw [List.cons_append, putAt_cons found]
          refine ⟨?_, ?_⟩
          · have deeper : written.map (first :: location ++ ·) =
                (written.map (location ++ ·)).map (first :: ·) := by
              simp
            rw [deeper]
            refine writesOnly_put (fun place unwritten content => ?_) fun place result kept => ?_
            · rw [found]
              exact inside.files place unwritten content
            · rw [found] at kept
              exact inside.folders place ⟨result, kept⟩
          · rw [node?_cons, find?_put, if_pos rfl]
            exact stands

end Folder

/-! ## Following paths -/

namespace Disk

/-- Steps lead where they say. -/
theorem eq_foldl_of_follow
    {disk : Disk}
    {start stop : List Text}
    {parts : List Text}
    (followed : disk.follow start parts = .ok stop) :
    stop = parts.foldl move start := by
  induction parts generalizing start with
  | nil => exact (Except.ok.inj followed).symm
  | cons part parts inductionHypothesis =>
      rw [follow] at followed
      split at followed
      next => cases followed
      next => cases followed
      next => exact inductionHypothesis followed

/-- Steps are taken in folders. -/
theorem follow_cons_eq_ok_iff
    {disk : Disk}
    {start stop : List Text}
    {part : Text}
    {parts : List Text} :
    disk.follow start (part :: parts) = .ok stop ↔
      disk.root.IsFolder start ∧ disk.follow (move start part) parts = .ok stop := by
  rw [follow]
  unfold Folder.IsFolder
  cases disk.root.node? start with
  | none => simp
  | some node => cases node <;> simp

theorem follow_append_eq_ok_iff
    {disk : Disk}
    {start stop : List Text}
    {parts more : List Text} :
    disk.follow start (parts ++ more) = .ok stop ↔
      ∃ between, disk.follow start parts = .ok between ∧ disk.follow between more = .ok stop := by
  induction parts generalizing start with
  | nil => simp [follow]
  | cons part parts inductionHypothesis =>
      rw [List.cons_append, follow_cons_eq_ok_iff, inductionHypothesis]
      simp only [follow_cons_eq_ok_iff, and_assoc, exists_and_left]

theorem move_here (location : List Text) : move location Path.here = location :=
  if_pos rfl

/-- A path leads somewhere if it is not empty and its parts can be followed. -/
theorem locate_eq_ok_iff
    {disk : Disk}
    {path : Path}
    {location : List Text} :
    disk.locate path = .ok location ↔
      path.text ≠ [] ∧
        disk.follow (disk.start path)
          (path.parts ++ if path.endsInSlash then [Path.here] else []) = .ok location := by
  rw [locate]
  split
  next empty =>
    rw [List.isEmpty_iff] at empty
    simp [empty]
  next nonempty =>
    rw [List.isEmpty_iff] at nonempty
    exact (and_iff_right nonempty).symm

/-- A path that can be followed leads to the location that its parts tell. -/
theorem eq_locationOf_of_locate
    {disk : Disk}
    {path : Path}
    {location : List Text}
    (located : disk.locate path = .ok location) :
    location = disk.locationOf path := by
  have steps := eq_foldl_of_follow (locate_eq_ok_iff.mp located).2
  rw [List.foldl_append] at steps
  rw [steps, locationOf]
  split
  next => exact move_here _
  next => rfl

/-- If a path leads to something that is no folder, its last step leads into a folder to a name. -/
theorem exists_eq_concat_of_follow
    {disk : Disk}
    {start stop : List Text}
    {parts : List Text}
    (followed : disk.follow start parts = .ok stop)
    (inFolder : disk.root.IsFolder start)
    (noFolder : ¬disk.root.IsFolder stop) :
    ∃ around name, stop = around ++ [name] ∧ disk.root.IsFolder around := by
  induction parts generalizing start with
  | nil =>
      rw [← Except.ok.inj followed] at noFolder
      exact absurd inFolder noFolder
  | cons part parts inductionHypothesis =>
      obtain ⟨_, followed⟩ := follow_cons_eq_ok_iff.mp followed
      by_cases stays : disk.root.IsFolder (move start part)
      · exact inductionHypothesis followed stays
      · -- the step leaves the folders, so that there is no further one
        cases parts with
        | cons next parts => exact absurd (follow_cons_eq_ok_iff.mp followed).1 stays
        | nil =>
            rw [← Except.ok.inj followed]
            unfold move at stays ⊢
            split at stays
            next => exact absurd inFolder stays
            next =>
              split at stays
              next =>
                refine absurd ?_ stays
                rcases List.eq_nil_or_concat start with rfl | ⟨front, last, rfl⟩
                · exact inFolder
                · rw [List.concat_eq_append] at inFolder ⊢
                  rw [List.dropLast_concat]
                  exact Folder.isFolder_of_append inFolder
              next notHere notUp =>
                rw [if_neg notHere, if_neg notUp]
                exact ⟨start, part, rfl, inFolder⟩

/-! ## Operations on a disk -/

/-- Only the files at the given locations may differ, and all folders are still there. -/
structure WritesOnly (written : List (List Text)) (before after : Disk) : Prop where
  /-- The working folder stays the same. -/
  working_eq : after.working = before.working
  /-- Below the root no other file differs. -/
  root : Folder.WritesOnly written before.root after.root

namespace WritesOnly

variable {written : List (List Text)} {before after : Disk}

theorem refl (disk : Disk) : WritesOnly [] disk disk :=
  ⟨rfl, .refl disk.root⟩

theorem trans
    {more : List (List Text)}
    {last : Disk}
    (earlier : WritesOnly written before after)
    (later : WritesOnly more after last) :
    WritesOnly (written ++ more) before last :=
  ⟨later.working_eq.trans earlier.working_eq, earlier.root.trans later.root⟩

theorem locationOf_eq (writes : WritesOnly written before after) (path : Path) :
    after.locationOf path = before.locationOf path := by
  unfold locationOf start
  rw [writes.working_eq]

/-- Paths that could be followed still can. -/
theorem follow
    (writes : WritesOnly written before after)
    {start stop : List Text}
    {parts : List Text}
    (followed : before.follow start parts = .ok stop) :
    after.follow start parts = .ok stop := by
  induction parts generalizing start with
  | nil => exact followed
  | cons part parts inductionHypothesis =>
      rw [follow_cons_eq_ok_iff] at followed ⊢
      exact ⟨writes.root.folders start followed.1, inductionHypothesis followed.2⟩

theorem locate
    (writes : WritesOnly written before after)
    {path : Path}
    {location : List Text}
    (located : before.locate path = .ok location) :
    after.locate path = .ok location := by
  rw [locate_eq_ok_iff] at located ⊢
  unfold start at located ⊢
  rw [writes.working_eq]
  exact ⟨located.1, writes.follow located.2⟩

end WritesOnly

/-- Making a folder changes no file. -/
theorem writesOnly_of_makeFolder
    {disk made : Disk}
    {path : Path}
    (succeeds : disk.makeFolder path = .ok made) :
    WritesOnly [] disk made := by
  unfold makeFolder at succeeds
  split at succeeds
  next => cases succeeds
  next last _ =>
    obtain ⟨around, _, succeeds⟩ := bind_eq_ok_iff.mp succeeds
    split at succeeds
    next => cases succeeds
    next => cases succeeds
    next inner parent =>
      split at succeeds
      next => cases succeeds
      next vacant =>
        rw [not_or, not_or, Option.not_isSome_iff_eq_none] at vacant
        rw [← pure_eq_ok_iff.mp succeeds]
        exact ⟨rfl, (Folder.putAt_in_folder parent (Folder.writesOnly_put_folder vacant.2.2)).1⟩

theorem writesOnly_of_makeFoldersAlong
    {disk made : Disk}
    {paths : List Path}
    (succeeds : disk.makeFoldersAlong paths = .ok made) :
    WritesOnly [] disk made := by
  induction paths generalizing made with
  | nil =>
      rw [← Except.ok.inj succeeds]
      exact .refl disk
  | cons path around inductionHypothesis =>
      rw [makeFoldersAlong] at succeeds
      split at succeeds
      next result madeFirst =>
        rw [← Except.ok.inj succeeds]
        exact writesOnly_of_makeFolder madeFirst
      next =>
        obtain ⟨prepared, madeAround, succeeds⟩ := bind_eq_ok_iff.mp succeeds
        have writes := inductionHypothesis madeAround
        split at succeeds
        next result madeFirst =>
          rw [← pure_eq_ok_iff.mp succeeds]
          exact writes.trans (writesOnly_of_makeFolder madeFirst)
        next =>
          split at succeeds
          next =>
            rw [← pure_eq_ok_iff.mp succeeds]
            exact writes
          next => cases succeeds
      next =>
        split at succeeds
        next =>
          rw [← Except.ok.inj succeeds]
          exact .refl disk
        next => cases succeeds

/-- Making folders changes no file. -/
theorem writesOnly_of_makeFolders
    {disk made : Disk}
    {path : Path}
    (succeeds : disk.makeFolders path = .ok made) :
    WritesOnly [] disk made :=
  writesOnly_of_makeFoldersAlong succeeds

/-- A path names a node exactly if it leads to its location. -/
theorem node_eq_ok_iff
    {disk : Disk}
    {path : Path}
    {found : Node} :
    disk.node path = .ok found ↔
      disk.locate path = .ok (disk.locationOf path) ∧
        disk.root.node? (disk.locationOf path) = some found := by
  unfold node
  rw [bind_eq_ok_iff]
  constructor
  · rintro ⟨location, located, equal⟩
    obtain rfl := eq_locationOf_of_locate located
    refine ⟨located, ?_⟩
    split at equal
    next other there => rw [there, pure_eq_ok_iff.mp equal]
    next => cases equal
  · rintro ⟨located, there⟩
    refine ⟨_, located, ?_⟩
    rw [there]
    rfl

/-- Reading a text is finding a file with it. -/
theorem readText_eq_ok_iff
    {disk : Disk}
    {path : Path}
    {text : Text} :
    disk.readText path = .ok text ↔
      ∃ content, disk.node path = .ok (.file content) ∧
        (String.fromUTF8? content).map String.toList = some text := by
  unfold readText
  rw [bind_eq_ok_iff]
  constructor
  · rintro ⟨found, named, equal⟩
    cases found with
    | folder inner => cases equal
    | file content =>
        refine ⟨content, named, ?_⟩
        cases decoded : String.fromUTF8? content with
        | none =>
            simp only [decoded] at equal
            cases equal
        | some string =>
            simp only [decoded] at equal
            rw [Option.map_some, pure_eq_ok_iff.mp equal]
  · rintro ⟨content, named, decoded⟩
    refine ⟨_, named, ?_⟩
    obtain ⟨string, isString, rfl⟩ := Option.map_eq_some_iff.mp decoded
    simp only [isString]
    rfl

theorem fromUTF8?_toUTF8 (string : String) : String.fromUTF8? string.toUTF8 = some string := by
  unfold String.fromUTF8?
  split
  next => rfl
  next invalid => exact absurd string.isValidUTF8 invalid

/-- A text that is written can be read, and no other file changes. -/
theorem of_writeText
    {disk after : Disk}
    {path : Path}
    {text : Text}
    (working : disk.root.IsFolder disk.working)
    (succeeds : disk.writeText path text = .ok after) :
    WritesOnly [disk.locationOf path] disk after ∧ after.readText path = .ok text := by
  obtain ⟨location, located, succeeds⟩ := bind_eq_ok_iff.mp succeeds
  have noFolder : ¬disk.root.IsFolder location := by
    rintro ⟨inner, there⟩
    rw [there] at succeeds
    cases succeeds
  have written : after = disk.putAt location (.file (String.ofList text).toUTF8) := by
    split at succeeds
    next => cases succeeds
    next => exact (pure_eq_ok_iff.mp succeeds).symm
  have startsInFolder : disk.root.IsFolder (disk.start path) := by
    unfold start
    split
    · exact disk.root.isFolder_nil
    · exact working
  obtain ⟨around, name, rfl, inner, parent⟩ :=
    exists_eq_concat_of_follow (locate_eq_ok_iff.mp located).2 startsInFolder noFolder
  have vacant : ¬inner.IsFolder [name] := by
    rintro ⟨other, there⟩
    apply noFolder
    refine ⟨other, ?_⟩
    rw [Folder.node?_append, parent]
    exact there
  obtain ⟨changed, stands⟩ := Folder.putAt_in_folder parent
    (Folder.writesOnly_put_file vacant (String.ofList text).toUTF8)
  have writes : WritesOnly [around ++ [name]] disk after := by
    rw [written]
    exact ⟨rfl, changed⟩
  have place := eq_locationOf_of_locate located
  have locatedAfter := writes.locate located
  rw [← place]
  refine ⟨writes, readText_eq_ok_iff.mpr
    ⟨(String.ofList text).toUTF8, node_eq_ok_iff.mpr ⟨?_, ?_⟩, ?_⟩⟩
  · rwa [writes.locationOf_eq, ← place]
  · rw [writes.locationOf_eq, ← place, written]
    exact stands
  · rw [fromUTF8?_toUTF8, Option.map_some, String.toList_ofList]

namespace WritesOnly

variable {written : List (List Text)} {before after : Disk}

/-- A text that is not written over can still be read. -/
theorem readText
    (writes : WritesOnly written before after)
    {path : Path}
    (unwritten : before.locationOf path ∉ written)
    {text : Text}
    (found : before.readText path = .ok text) :
    after.readText path = .ok text := by
  rw [readText_eq_ok_iff] at found ⊢
  obtain ⟨content, named, decoded⟩ := found
  rw [node_eq_ok_iff] at named
  refine ⟨content, node_eq_ok_iff.mpr ?_, decoded⟩
  rw [writes.locationOf_eq]
  exact ⟨writes.locate named.1, (writes.root.files _ unwritten content).mpr named.2⟩

end WritesOnly

/-- If there is a file where the path leads to, the path can be followed to it. -/
def LeadsToFile (disk : Disk) (path : Path) : Prop :=
  ∀ content, disk.root.node? (disk.locationOf path) = some (.file content) →
    disk.locate path = .ok (disk.locationOf path)

namespace WritesOnly

variable {written : List (List Text)} {before after : Disk}

theorem leadsToFile
    (writes : WritesOnly written before after)
    {path : Path}
    (unwritten : before.locationOf path ∉ written)
    (leads : before.LeadsToFile path) :
    after.LeadsToFile path := by
  intro content there
  rw [writes.locationOf_eq] at there ⊢
  exact writes.locate (leads content ((writes.root.files _ unwritten content).mp there))

/-- A text that was not written over could be read before. -/
theorem readText_before
    (writes : WritesOnly written before after)
    {path : Path}
    (unwritten : before.locationOf path ∉ written)
    (leads : before.LeadsToFile path)
    {text : Text}
    (found : after.readText path = .ok text) :
    before.readText path = .ok text := by
  rw [readText_eq_ok_iff] at found ⊢
  obtain ⟨content, named, decoded⟩ := found
  rw [node_eq_ok_iff, writes.locationOf_eq, writes.root.files _ unwritten] at named
  exact ⟨content, node_eq_ok_iff.mpr ⟨leads content named.2, named.2⟩, decoded⟩

end WritesOnly
end Disk
end OutputThreading
