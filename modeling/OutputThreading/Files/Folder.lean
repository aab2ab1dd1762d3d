import OutputThreading.Text.Basic

/-!
# Folders

A folder is a list of named files and folders in the order in which they are enumerated.
-/

namespace OutputThreading

/-- A folder and everything in it. -/
inductive Folder where
  /-- No further entry. -/
  | empty
  /-- A file and the other entries. -/
  | file (name : Text) (content : ByteArray) (others : Folder)
  /-- A folder and the other entries. -/
  | folder (name : Text) (inner : Folder) (others : Folder)

/-- What a name may stand for. -/
inductive Node where
  /-- A file with its content. -/
  | file (content : ByteArray)
  /-- A folder. -/
  | folder (inner : Folder)

namespace Folder

/-- The entry with a given name. -/
def find? (name : Text) : Folder → Option Node
  | .empty => none
  | .file other content others => if other = name then some (.file content) else others.find? name
  | .folder other inner others => if other = name then some (.folder inner) else others.find? name

/-- What stands at a location: a sequence of names, one inside the other. -/
def node? (root : Folder) : (location : List Text) → Option Node
  | [] => some (.folder root)
  | name :: location =>
      match root.find? name with
      | some (.folder inner) => inner.node? location
      | some (.file content) => if location.isEmpty then some (.file content) else none
      | none => none

/-- Put an entry in front of others. -/
def cons (name : Text) (node : Node) (others : Folder) : Folder :=
  match node with
  | .file content => .file name content others
  | .folder inner => .folder name inner others

/-- Put an entry into the place of the one with its name, or behind all others. -/
def put (name : Text) (node : Node) : Folder → Folder
  | .empty => cons name node .empty
  | .file other content others =>
      if other = name then cons name node others else .file other content (others.put name node)
  | .folder other inner others =>
      if other = name then cons name node others else .folder other inner (others.put name node)

/-- Put a node at a location, making the folders on the way to it. -/
def putAt (root : Folder) (node : Node) : (location : List Text) → Folder
  | [] => root
  | [name] => root.put name node
  | name :: location =>
      match root.find? name with
      | some (.folder inner) => root.put name (.folder (inner.putAt node location))
      | _ => root.put name (.folder (Folder.empty.putAt node location))

/-- Make the folders on the way to a location and the one at it, unless something is there. -/
def addFolder (root : Folder) (location : List Text) : Folder :=
  if (root.node? location).isSome then root else root.putAt (.folder .empty) location

/-- All files below a folder, by their locations. -/
def files : Folder → List (List Text × ByteArray)
  | .empty => []
  | .file name content others => ([name], content) :: others.files
  | .folder name inner others =>
      inner.files.map (fun (location, content) => (name :: location, content)) ++ others.files

/-- All folders below a folder, by their locations, outer ones first. -/
def folders : Folder → List (List Text)
  | .empty => []
  | .file _ _ others => others.folders
  | .folder name inner others => [name] :: inner.folders.map (name :: ·) ++ others.folders

/-- The files of a folder that an earlier state of it does not have with the same content. -/
def changedFiles (before after : Folder) : List (List Text × ByteArray) :=
  after.files.filter fun (location, content) =>
    match before.node? location with
    | some (.file earlier) => earlier != content
    | _ => true

/-- The name is hidden: it starts with a dot. -/
def isHidden (name : Text) : Bool :=
  name.head? = some '.'

/-- The files below a folder with no hidden name on the way to them, by their locations. -/
def visibleFiles : Folder → List (List Text)
  | .empty => []
  | .file name _ others => (if isHidden name then [] else [[name]]) ++ others.visibleFiles
  | .folder name inner others =>
      (if isHidden name then [] else inner.visibleFiles.map (name :: ·)) ++ others.visibleFiles

end Folder
end OutputThreading
