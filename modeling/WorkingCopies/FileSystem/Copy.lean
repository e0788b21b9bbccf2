import WorkingCopies.FileSystem.Edit

/-!
# Copying files and folders

A file is copied into a folder that is made if it is missing. A folder is copied with everything in
it; what lies in the target already stays unless the source has the same name. Links are not
followed on the way down, but the file that a link leads to is copied in its place.
-/

namespace WorkingCopies.FileSystem

/-- Copy a file. -/
def copyFile (source target : Path) : Edit Unit := do
  if let some folder := target.parent? then createFolders folder
  copyBytes source target

/-- What lies in a folder of the source. A copy is made in the order in which the system lists the
folder, which may be any; here it is that of the names. -/
def listing (path : Path) : Edit (List (String × Node)) := do
  let files ← get
  match files.folderAt path with
  | .ok location => return files.contents location
  | .error fault =>
    throw (.other ("IO error for operation on " ++ path.text ++ ": " ++ fault.message))

/-- A path below another one. -/
def pathBelow (path : Path) (names : List String) : Path := names.foldl (·.join ⟨·⟩) path

/-- A relative path of names. -/
def relativePath (names : List String) : Path := ⟨"/".intercalate names⟩

/-- Copy what lies `below` the source. A folder is made first and listed after that. -/
def copyBelow (source target : Path) : Nat → List String → Node → Edit Unit
  | 0, _, _ => throw .nameTooLong
  | fuel + 1, below, .folder => do
    createFolders (target.join (relativePath below))
    for (name, node) in ← listing (pathBelow source below) do
      copyBelow source target fuel (below ++ [name]) node
  | _ + 1, below, _ => copyFile (pathBelow source below) (target.join (relativePath below))

/-- Copy a folder. A path that is itself a link counts as the link. Folders lie less deep than a
path has bytes. -/
def copyFolder (source target : Path) : Edit Unit := do
  unless (← get).isFolder source do throw (.sourceNotAFolder source.text)
  match ← Edit.ask (·.resolve .lookAtLink source) with
  | .present _ node => copyBelow source target (pathLimit + 1) [] node
  | .absent .. => throw .noSuchEntry

end WorkingCopies.FileSystem
