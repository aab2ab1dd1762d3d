import OutputThreading.Files.Folder
import OutputThreading.Files.Path

/-!
# Disks

A disk is a root folder and the location of the working folder.  Paths are followed step by step,
and every step but the last must lead into a folder that exists.
-/

namespace OutputThreading

/-- The reason why a file operation failed. -/
inductive FileError where
  /-- There is no such file or folder. -/
  | notFound
  /-- There is something already. -/
  | exists
  /-- A file stands where a folder is needed. -/
  | notAFolder
  /-- A folder stands where a file is needed. -/
  | isAFolder
  /-- The content of a file is no text. -/
  | notText
deriving Repr, DecidableEq

namespace FileError

/-- The message for a failed file operation. -/
def message : FileError → Text
  | notFound => "No such file or directory (os error 2)".toList
  | .exists => "File exists (os error 17)".toList
  | notAFolder => "Not a directory (os error 20)".toList
  | isAFolder => "Is a directory (os error 21)".toList
  | notText => "stream did not contain valid UTF-8".toList

end FileError

/-- A root folder and the location of the working folder in it. -/
structure Disk where
  /-- The folder that holds everything. -/
  root : Folder
  /-- The location of the working folder. -/
  working : List Text

namespace Disk

/-- The location that a part of a path leads to from a folder. -/
def move (location : List Text) (part : Text) : List Text :=
  if part = Path.here then location
  else if part = Path.up then location.dropLast
  else location ++ [part]

/-- Follow the parts of a path from a location.  What the last part leads to need not exist. -/
def follow (disk : Disk) (location : List Text) :
    (parts : List Text) → Except FileError (List Text)
  | [] => .ok location
  | part :: parts =>
      match disk.root.node? location with
      | none => .error .notFound
      | some (.file _) => .error .notAFolder
      | some (.folder _) => disk.follow (move location part) parts

/-- The location where a path starts. -/
def start (disk : Disk) (path : Path) : List Text :=
  if path.isAbsolute then [] else disk.working

/-- The location of a path with its steps taken one by one, whatever stands on the way. -/
def locationOf (disk : Disk) (path : Path) : List Text :=
  path.parts.foldl move (disk.start path)

/-- The location that a path leads to.  What it names need not exist, but an empty path names
nothing. -/
def locate (disk : Disk) (path : Path) : Except FileError (List Text) :=
  if path.text.isEmpty then .error .notFound
  else disk.follow (disk.start path) (path.parts ++ if path.endsInSlash then [Path.here] else [])

/-- What a path names. -/
def node (disk : Disk) (path : Path) : Except FileError Node := do
  let location ← disk.locate path
  match disk.root.node? location with
  | some node => return node
  | none => throw .notFound

/-- The path names a file. -/
def isFile (disk : Disk) (path : Path) : Bool :=
  match disk.node path with
  | .ok (.file _) => true
  | _ => false

/-- The folder that a path names. -/
def folder? (disk : Disk) (path : Path) : Option Folder :=
  match disk.node path with
  | .ok (.folder inner) => some inner
  | _ => none

/-- The path names a folder. -/
def isFolder (disk : Disk) (path : Path) : Bool :=
  (disk.folder? path).isSome

/-- The text in the file that a path names. -/
def readText (disk : Disk) (path : Path) : Except FileError Text := do
  match ← disk.node path with
  | .folder _ => throw .isAFolder
  | .file content =>
      match String.fromUTF8? content with
      | some text => return text.toList
      | none => throw .notText

/-- Put a node at a location. -/
def putAt (disk : Disk) (location : List Text) (node : Node) : Disk :=
  { disk with root := disk.root.putAt node location }

/-- Write a text to the file that a path names. -/
def writeText (disk : Disk) (path : Path) (text : Text) : Except FileError Disk := do
  let location ← disk.locate path
  match disk.root.node? location with
  | some (.folder _) => throw .isAFolder
  | _ => return disk.putAt location (.file (String.ofList text).toUTF8)

/-- Make one folder. -/
def makeFolder (disk : Disk) (path : Path) : Except FileError Disk := do
  match path.parts.getLast? with
  | none => throw (if path.isAbsolute then .exists else .notFound)
  | some last =>
      let around ← disk.follow (disk.start path) path.parts.dropLast
      match disk.root.node? around with
      | none => throw .notFound
      | some (.file _) => throw .notAFolder
      | some (.folder inner) =>
          if last = Path.here ∨ last = Path.up ∨ (inner.find? last).isSome then throw .exists
          else return disk.putAt (around ++ [last]) (.folder .empty)

/-- Make the first of the paths a folder, after making the others if one is missing.  The others
are the paths of the folders around it, from the inside out. -/
def makeFoldersAlong (disk : Disk) : List Path → Except FileError Disk
  | [] => .ok disk
  | path :: around =>
      match disk.makeFolder path with
      | .ok made => .ok made
      | .error .notFound => do
          let prepared ← disk.makeFoldersAlong around
          match prepared.makeFolder path with
          | .ok made => return made
          | .error error => if prepared.isFolder path then return prepared else throw error
      | .error error => if disk.isFolder path then .ok disk else .error error

/-- Make a folder and all missing folders around it. -/
def makeFolders (disk : Disk) (path : Path) : Except FileError Disk :=
  disk.makeFoldersAlong path.ancestors

end Disk
end OutputThreading
