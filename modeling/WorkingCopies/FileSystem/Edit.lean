import WorkingCopies.FileSystem.Resolve

/-!
# Changing a file system

Each change may fail after part of it is done. Making a folder with those above it counts as done
when the folder is there already. Writing goes through links, also to a place that is still empty;
removing does not.
-/

namespace WorkingCopies.FileSystem

/-- A change of a file system. A failed change keeps what it did up to there. -/
abbrev Edit := ExceptT Fault (StateM FileSystem)

/-- Ask something about the file system. -/
def Edit.ask {α : Type} (question : FileSystem → Except Fault α) : Edit α := do
  match question (← get) with
  | .ok answer => return answer
  | .error fault => throw fault

/-- Put something in a place. -/
def Edit.put (location : Location) (node : Node) : Edit Unit :=
  modify fun files => files.put location node

/-- Make one folder. Its name may not be taken, not even by a link that leads nowhere. -/
def makeFolder (path : Path) : Edit Unit := do
  match ← Edit.ask (·.resolveParent path) with
  | (_, none) => throw .alreadyExists
  | (folder, some name) =>
    if ((← get).find? (folder ++ [name])).isSome then throw .alreadyExists
    Edit.put (folder ++ [name]) .folder

/-- Make one folder unless a folder is there. -/
def ensureFolder (path : Path) : Edit Unit := do
  try makeFolder path
  catch fault =>
    unless (← get).isFolder path do throw fault

/-- Make a folder and, as far as they are missing, those above it. There are fewer of them than the
path has characters. -/
def createFoldersOn : Nat → Path → Edit Unit
  | 0, _ => throw .noFolderToCreate
  | fuel + 1, path => do
    if path.text.isEmpty then return
    try makeFolder path
    catch
      | .noSuchEntry =>
        match path.parent? with
        | some parent => createFoldersOn fuel parent
        | none => throw .noFolderToCreate
        ensureFolder path
      | fault => unless (← get).isFolder path do throw fault

/-- Make a folder and, as far as they are missing, those above it. The empty path names none. -/
def createFolders (path : Path) : Edit Unit := createFoldersOn (path.text.length + 1) path

/-- Open a file for writing, and make it if it is missing. It is empty then. -/
def openFile (path : Path) : Edit Location := do
  match ← Edit.ask (·.resolve .write path) with
  | .present location (.file _) =>
    Edit.put location (.file [])
    return location
  | .present _ _ => throw .isAFolder
  | .absent folder name =>
    Edit.put (folder ++ [name]) (.file [])
    return folder ++ [name]

/-- Write a file. -/
def writeFile (path : Path) (contents : Bytes) : Edit Unit := do
  Edit.put (← openFile path) (.file contents)

/-- Make a link. Its place may not be taken. -/
def makeLink (path : Path) (target : String) : Edit Unit := do
  match ← Edit.ask (·.resolveParent path) with
  | (_, none) => throw .alreadyExists
  | (folder, some name) =>
    if ((← get).find? (folder ++ [name])).isSome then throw .alreadyExists
    Edit.put (folder ++ [name]) (.link target)

/-- Write the bytes of one file to another. They are read after the other file has been opened, so a
file that is copied onto itself ends up empty. -/
def copyBytes (source target : Path) : Edit Unit := do
  match ← Edit.ask (·.resolve .look source) with
  | .absent .. => throw .noSuchEntry
  | .present location (.file _) =>
    let place ← openFile target
    match (← get).find? location with
    | some (.file contents) => Edit.put place (.file contents)
    | _ => throw .noSuchEntry
  | .present _ _ => throw .notRegular

/-- Why the folder of a path that does not end in the name of the folder cannot be removed: the root
is needed by the system, a folder that is named by way of one in it is not empty, and otherwise the
path ends in a dot. -/
def unnamedRemovalFault (path : Path) : Fault :=
  match path.names.getLast? with
  | none => .inUse
  | some ".." => .notEmpty
  | some _ => .invalidArgument

/-- Remove an empty folder, which has to be named by its own name. -/
def removeFolder (path : Path) : Edit Unit := do
  match ← Edit.ask (·.resolveParent path) with
  | (_, none) => throw (unnamedRemovalFault path)
  | (folder, some name) =>
    let location := folder ++ [name]
    match (← get).find? location with
    | none => throw .noSuchEntry
    | some .folder =>
      if ((← get).contents location).isEmpty then modify (·.erase location)
      else throw .notEmpty
    | some _ => throw .notAFolder

/-- Remove a folder with everything in it, or a link. -/
def removeTree (path : Path) : Edit Unit := do
  match ← Edit.ask (·.resolve .lookAtLink path) with
  | .absent .. => throw .noSuchEntry
  | .present location (.link _) => modify (·.erase location)
  | .present _ (.file _) => throw .notAFolder
  | .present location .folder =>
    modify (·.eraseBelow location)
    removeFolder path

end WorkingCopies.FileSystem
