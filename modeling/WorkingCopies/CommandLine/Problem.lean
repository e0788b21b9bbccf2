import WorkingCopies.Failure
import WorkingCopies.Path
import WorkingCopies.Text.Replace

/-!
# Why a command fails

A command fails because an operation failed, because a file could not be loaded, or because it would
do harm. The report of a problem ends with what lies behind it: each cause is indented, and they are
numbered when there are several.
-/

namespace WorkingCopies.CommandLine

/-- Why a command failed. -/
inductive Problem where
  | failed (failure : Failure)
  /-- A file could not be loaded. -/
  | loading (what : String) (path : Path) (failure : Failure)
  /-- The command refuses to do its work. -/
  | refused (reason : String)

namespace Problem

/-- The text of a problem, and the texts of what lies behind it. -/
def texts : Problem → String × List String
  | failed failure => (failure.message, failure.cause?.toList)
  | loading what path failure =>
    ("Failed to load " ++ what ++ " " ++ path.text, failure.message :: failure.cause?.toList)
  | refused reason => (reason, [])

/-- A cause behind its number. -/
def numbered (index : Nat) (text : String) : String :=
  let number := toString index
  String.ofList (List.replicate (5 - number.length) ' ') ++ number ++ ": " ++
    Text.replace "\n" "\n       " text

/-- Causes, each from a line of its own on. -/
def causeLines : List String → List String
  | [text] => ["    " ++ Text.replace "\n" "\n    " text]
  | texts => texts.zipIdx.map fun (text, index) => numbered index text

/-- The report of a problem. -/
def report (problem : Problem) : String :=
  let (text, causes) := problem.texts
  let behind :=
    if causes.isEmpty then "" else "\n\nCaused by:\n" ++ "\n".intercalate (causeLines causes)
  "Error: " ++ text ++ behind ++ "\n"

end Problem

end WorkingCopies.CommandLine
