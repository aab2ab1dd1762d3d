import OutputThreading.Command.Run

/-!
# The command line

The outer layer of the command: it loads the files that a run may look at into a disk, runs the
command on it, and carries the changes out.
-/

namespace OutputThreading
namespace Main

/-- The paths that a run with these options may look at. -/
def mentionedPaths (options : Command.Options) : List Path :=
  options.inputs ++ options.outDir.toList ++ options.config.toList ++ Command.defaultConfigs

/-- A location as a path from the root. -/
def absolutePath (location : List Text) : String :=
  String.ofList ('/' :: (Path.ofNames location).text)

/-- Load a file, or a folder with everything in it. -/
partial def load (disk : Disk) (location : List Text) : IO Disk := do
  let path := (← IO.currentDir) / absolutePath location
  if ← path.isDir then
    let mut loaded := { disk with root := disk.root.addFolder location }
    for entry in ← path.readDir do
      loaded ← load loaded (location ++ [entry.fileName.toList])
    return loaded
  else if ← path.pathExists then
    return disk.putAt location (.file (← IO.FS.readBinFile path))
  else
    return disk

/-- Load what stands at a location, and what stands on the way to it. -/
def loadAlong (disk : Disk) (location : List Text) : IO Disk := do
  let mut loaded := disk
  for depth in [1:location.length] do
    let path := (← IO.currentDir) / absolutePath (location.take depth)
    if ← path.isDir then
      loaded := { loaded with root := loaded.root.addFolder (location.take depth) }
    else
      return ← load loaded (location.take depth)
  load loaded location

/-- Carry out the changes of a run. -/
def store (before after : Disk) : IO Unit := do
  for location in after.root.folders do
    if (before.root.node? location).isNone then
      IO.FS.createDirAll (absolutePath location)
  for (location, content) in before.root.changedFiles after.root do
    IO.FS.writeBinFile (absolutePath location) content

/-- The disk with the working folder and the files that a run may look at. -/
def loadDisk (options : Command.Options) : IO Disk := do
  let working := (Path.mk (toString (← IO.currentDir)).toList).parts
  let mut disk : Disk := ⟨Folder.empty.addFolder working, working⟩
  for path in mentionedPaths options do
    disk ← loadAlong disk (disk.locationOf path)
  return disk

/-- How the command is called. -/
def usage : String :=
  "usage: [--out-dir DIR] [--mode MODE] [--naming NAMING] [--config FILE] [--strict-calls] " ++
    "[--verbose] INPUT..."

/-- Run the command with the given arguments. -/
def run (arguments : List Text) : IO UInt32 := do
  match Command.Options.ofArguments? arguments with
  | none =>
      IO.eprintln usage
      return 2
  | some options =>
      let disk ← loadDisk options
      let outcome := Command.run disk arguments
      store disk outcome.disk
      IO.print (String.ofList outcome.output)
      for message in outcome.messages do
        IO.eprintln (String.ofList message)
      return outcome.exitCode.toUInt32

end Main
end OutputThreading

/-- The entry point of the command. -/
def main (arguments : List String) : IO UInt32 :=
  OutputThreading.Main.run (arguments.map String.toList)
