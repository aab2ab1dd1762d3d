import OutputThreading.Files.Disk

/-!
# Listing input files

An input that names a file stands for that file; an input that names a folder stands for all files
below it that are not hidden; any other input stands for nothing.  Lists of files are ordered by the
components of their paths.
-/

namespace OutputThreading
namespace Disk

/-- The files that an input stands for, by their locations relative to it, in no special order.  A
file relative to itself has no name. -/
def filesOf (disk : Disk) (input : Path) : List (List Text) :=
  match disk.node input with
  | .ok (.file _) => [[]]
  | .ok (.folder inner) => inner.visibleFiles
  | .error _ => []

/-- The files that an input stands for, by their paths, in no special order. -/
def pathsOf (disk : Disk) (input : Path) : List Path :=
  (disk.filesOf input).map input.descend

/-- The files that the inputs stand for, ordered by the components of their paths. -/
def listFiles (disk : Disk) (inputs : List Path) : List Path :=
  (inputs.flatMap disk.pathsOf).mergeSort Path.le

end Disk
end OutputThreading
