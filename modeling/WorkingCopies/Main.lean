import WorkingCopies.CommandLine.Run
import WorkingCopies.FileSystem.Outline

/-!
# The program

The command line over the files of this computer. The files below the working folder, and the
settings of the user, are read; the command runs on them; and what it changed is written back. No
other program is started from here: git is taken to be missing, and a command that needs it says so.
Where git is installed it is the same command line that runs, for another host.
-/

namespace WorkingCopies

open FileSystem (Location Node)

/-- The environment of this program. -/
def readEnvironment : IO Environment := do
  let bytes ← IO.FS.readBinFile "/proc/self/environ"
  let entries := bytes.toList.splitOn 0
  return ⟨(entries.filter fun entry => !entry.isEmpty).map Text.decodeLossy⟩

/-- The path of a place. -/
def pathOf (location : Location) : String := "/" ++ "/".intercalate location

/-- Read an entry of a folder with everything below it. Links are read as what they lead to. -/
partial def readEntry (folder : Location) (entry : IO.FS.DirEntry) :
    IO (List (Location × Node)) := do
  let place := folder ++ [entry.fileName]
  if ← entry.path.isDir then
    let below ← (← entry.path.readDir).toList.mapM (readEntry place)
    return (place, Node.folder) :: below.flatten
  else
    let contents ← IO.FS.readBinFile entry.path
    return [(place, Node.file contents.toList)]

/-- The folders on the way to a place, and the place itself. -/
def foldersTo (location : Location) : List (Location × Node) :=
  (FileSystem.emptyAt location).entries

/-- Read the file of the settings, if there is one outside of the working folder. -/
def readSettings (path : Path) : IO (List (Location × Node)) := do
  if !path.isAbsolute then return []
  try
    let contents ← IO.FS.readBinFile path.text
    return (path.names, Node.file contents.toList) :: foldersTo path.names.dropLast
  catch _ => return []

/-- Write what changed from one file system to another. -/
def writeChanges (before after : FileSystem) : IO Unit := do
  for (location, node) in before.entries do
    if (after.find? location).isNone && node != .folder then
      IO.FS.removeFile (pathOf location)
  for (location, node) in after.entries.reverse do
    if before.find? location != some node then
      match node with
      | .folder => IO.FS.createDirAll (pathOf location)
      | .file contents => IO.FS.writeBinFile (pathOf location) ⟨contents.toArray⟩
      | .link _ => pure ()

/-- Run a command line on the files of this computer. -/
def runHere (arguments : List String) : IO UInt32 := do
  let environment ← readEnvironment
  let folder ← IO.currentDir
  let start := (⟨toString folder⟩ : Path).names
  let below ← (← folder.readDir).toList.mapM (readEntry start)
  let settings ← readSettings (Defaults.settings environment)
  let files : FileSystem := { entries := below.flatten ++ foldersTo start ++ settings, start }
  let outcome := CommandLine.run arguments { git := none, environment } { files }
  writeChanges files outcome.workspace.files
  IO.print outcome.output
  IO.eprint outcome.errorOutput
  return outcome.status.toUInt32

end WorkingCopies

/-- The program. -/
def main (arguments : List String) : IO UInt32 := WorkingCopies.runHere arguments
