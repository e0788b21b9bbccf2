import WorkingCopies.FileSystem.Edit

/-!
# Outlines

An outline lists what lies below the working folder by relative paths: files, links and the folders
that are empty, whose paths end in a slash. In the same form, changes can be asked for.
-/

namespace WorkingCopies.FileSystem

/-- A change of what a relative path names. -/
inductive Change where
  | write (contents : Bytes)
  | link (target : String)
  | remove
  deriving Repr, DecidableEq

/-- Make a change, with the folders above as far as they are missing. What is written under a path
with a slash at its end is a folder. -/
def makeChange (name : String) (change : Change) : Edit Unit := do
  let path : Path := ⟨name⟩
  let createAbove : Edit Unit := do
    if let some folder := path.parent? then createFolders folder
  match change with
  | .write contents =>
    if path.endsInSlash then createFolders path
    else
      createAbove
      writeFile path contents
  | .link target =>
    createAbove
    makeLink path target
  | .remove =>
    match ← Edit.ask (·.resolve .lookAtLink path) with
    | .present location _ => modify fun files => (files.eraseBelow location).erase location
    | .absent .. => return

/-- Make changes in the order of their names. One that is not possible is left out. -/
def applyChanges (files : FileSystem) (changes : List (String × Change)) : FileSystem :=
  (changes.mergeSort fun a b => a.1 ≤ b.1).foldl
    (fun files change => ((makeChange change.1 change.2).run.run files).2) files

/-- The path of a place as seen from a folder. -/
def relativeName (folder location : Location) : String :=
  if location = folder then "."
  else if folder.isPrefixOf location then "/".intercalate (location.drop folder.length)
  else "/" ++ "/".intercalate location

/-- The outline of what lies below the working folder. -/
def outline (files : FileSystem) : List (String × Node) :=
  files.entries.filterMap fun (location, node) =>
    if !isBelow location files.start then none
    else
      let name := relativeName files.start location
      match node with
      | .folder => if (files.contents location).isEmpty then some (name ++ "/", node) else none
      | _ => some (name, node)

/-- A file system that holds nothing but its working folder and the folders above it. -/
def emptyAt (start : Location) : FileSystem where
  entries := (List.range start.length).map fun count => (start.take (count + 1), .folder)
  start

end WorkingCopies.FileSystem
