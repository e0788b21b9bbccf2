import WorkingCopies.FileSystem.Basic
import WorkingCopies.FileSystem.Fault
import WorkingCopies.Path

/-!
# From paths to places

A path is followed name by name, through links as well. It ends at a place that holds something, or
at a name that a folder does not hold yet. At most forty links are followed.
-/

namespace WorkingCopies.FileSystem

/-- Where a path ends. -/
inductive Place where
  /-- A place that holds something. -/
  | present (location : Location) (node : Node)
  /-- A folder, and a name that it does not hold. -/
  | absent (folder : Location) (name : String)
  deriving Repr, DecidableEq

/-- What is to be done at the end of a path. -/
inductive Purpose where
  /-- Look at what the path names; a link is followed. -/
  | look
  /-- Look at the place itself, also when it holds a link. -/
  | lookAtLink
  /-- Write a file. A path that ends in a slash names no file. -/
  | write
  deriving Repr, DecidableEq

/-- The most links that are followed on one path. -/
def linkLimit : Nat := 40

/-- The most bytes of a name. -/
def nameLimit : Nat := 255

/-- The most bytes of a path. -/
def pathLimit : Nat := 4095

/-- Follow names from a place, which is a folder. The flag says that a folder has to be at the end.
Where a link has to be followed, it is told what the link leads over: the folder where the names of
its target start, all names still to come, and the flag for these. -/
def follow (files : FileSystem) (purpose : Purpose)
    (followLink : Location → List String → Bool → Except Fault Place) :
    Location → (names : List String) → (needsFolder : Bool) → Except Fault Place
  | here, [], _ => .ok (.present here .folder)
  | here, name :: names, needsFolder =>
    if name = "." then follow files purpose followLink here names needsFolder
    else if name = ".." then follow files purpose followLink here.dropLast names needsFolder
    else if purpose = .write ∧ names = [] ∧ needsFolder then .error .isAFolder
    else if name.utf8ByteSize > nameLimit then .error .nameTooLong
    else
      let location := here ++ [name]
      match files.find? location with
      | none => if names = [] then .ok (.absent here name) else .error .noSuchEntry
      | some .folder => follow files purpose followLink location names needsFolder
      | some (.file contents) =>
        if names = [] ∧ !needsFolder then .ok (.present location (.file contents))
        else .error .notAFolder
      | some (.link target) =>
        if purpose = .lookAtLink ∧ names = [] ∧ !needsFolder then
          .ok (.present location (.link target))
        else
          let path : Path := ⟨target⟩
          followLink (if path.isAbsolute then [] else here) (path.names ++ names)
            (needsFolder || (names = [] && path.endsInSlash))

/-- Follow names from a place, which is a folder, over no more than some number of links. -/
def walk (files : FileSystem) (purpose : Purpose) :
    (links : Nat) → Location → (names : List String) → (needsFolder : Bool) → Except Fault Place
  | 0 => follow files purpose fun _ _ _ => .error .tooManyLinks
  | links + 1 => follow files purpose (walk files purpose links)

/-- Whether a path can be given to the operating system at all. -/
def checkPath (path : Path) : Except Fault Unit :=
  if path.text.toList.contains '\x00' then .error .nulInPath
  else if path.text.isEmpty then .error .noSuchEntry
  else if path.text.utf8ByteSize > pathLimit then .error .nameTooLong
  else .ok ()

/-- The place where a path starts. The working folder may be gone. -/
def origin (files : FileSystem) (path : Path) : Except Fault Location :=
  if path.isAbsolute then .ok []
  else if files.find? files.start = some .folder then .ok files.start
  else .error .noSuchEntry

/-- Where a path ends. -/
def resolve (files : FileSystem) (purpose : Purpose) (path : Path) : Except Fault Place := do
  checkPath path
  walk files purpose linkLimit (← files.origin path) path.names path.endsInSlash

/-- The folder that holds the last name of a path, which is not followed, and that name. The last
name is missing when it is `.` or `..` or when there is none. -/
def resolveParent (files : FileSystem) (path : Path) :
    Except Fault (Location × Option String) := do
  checkPath path
  let origin ← files.origin path
  let name := path.names.getLast?.filter fun name => name ≠ "." && name ≠ ".."
  match ← walk files .look linkLimit origin path.names.dropLast true with
  | .present location _ =>
    if name.any (·.utf8ByteSize > nameLimit) then throw .nameTooLong
    return (location, name)
  | .absent .. => throw .noSuchEntry

/-- Where a folder lies. -/
def folderAt (files : FileSystem) (path : Path) : Except Fault Location := do
  match ← files.resolve .look path with
  | .present location .folder => return location
  | .present _ _ => throw .notAFolder
  | .absent .. => throw .noSuchEntry

/-- Whether a path leads to a folder. -/
def isFolder (files : FileSystem) (path : Path) : Bool := (files.folderAt path).toOption.isSome

/-- Whether a path leads to anything. -/
def leadsAnywhere (files : FileSystem) (path : Path) : Bool :=
  match files.resolve .look path with
  | .ok (.present _ _) => true
  | _ => false

/-- The bytes of a file. -/
def bytesAt (files : FileSystem) (path : Path) : Except Fault Bytes := do
  match ← files.resolve .look path with
  | .present _ (.file contents) => return contents
  | .present _ _ => throw .isAFolder
  | .absent .. => throw .noSuchEntry

/-- The text of a file. -/
def textAt (files : FileSystem) (path : Path) : Except Fault String := do
  match Text.decode? (← files.bytesAt path) with
  | some text => return text
  | none => throw .notUtf8

end WorkingCopies.FileSystem
