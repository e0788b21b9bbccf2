/-!
# Paths

A path is a text; its parts stand between slashes. Joining and taking the folder of a path work on
the text alone and ask no file system. A path that starts with a slash is absolute.
-/

namespace WorkingCopies

/-- A path as it is written. -/
structure Path where
  text : String
  deriving Repr, DecidableEq, Inhabited

namespace Path

/-- The pieces of the text between slashes, empty ones included. -/
def pieces (path : Path) : List (List Char) := path.text.toList.splitOn '/'

/-- Whether the path starts at the root. -/
def isAbsolute (path : Path) : Bool := path.text.toList.head? == some '/'

/-- Whether the path is written as that of a folder, with a slash at its end. -/
def endsInSlash (path : Path) : Bool := path.text.toList.getLast? == some '/'

/-- The names on the way, with `.` and `..` among them. -/
def names (path : Path) : List String :=
  (path.pieces.filter fun piece => !piece.isEmpty).map String.ofList

/-- A path below another one. An absolute path stays as it is. -/
def join (base path : Path) : Path :=
  if path.isAbsolute || base.text.isEmpty then path
  else if base.endsInSlash then ⟨base.text ++ path.text⟩
  else ⟨base.text ++ "/" ++ path.text⟩

/-- Drop the pieces at the end of a path that name nothing: empty ones, and `.` unless a relative
path starts with it. The last piece comes first. -/
def dropIdle (isAbsolute : Bool) : List (List Char) → List (List Char)
  | [] => []
  | [piece] => if piece == [] || (isAbsolute && piece == ['.']) then [] else [piece]
  | piece :: pieces =>
    if piece == [] || piece == ['.'] then dropIdle isAbsolute pieces else piece :: pieces

/-- The path of the folder that holds what a path names, unless the path is empty or the root. -/
def parent? (path : Path) : Option Path :=
  let pieces := if path.isAbsolute then path.pieces.drop 1 else path.pieces
  match dropIdle path.isAbsolute pieces.reverse with
  | [] => none
  | _ :: above =>
    let rest := (dropIdle path.isAbsolute above).reverse
    let root := if path.isAbsolute then ['/'] else []
    some ⟨String.ofList (root ++ ['/'].intercalate rest)⟩

end Path

end WorkingCopies
