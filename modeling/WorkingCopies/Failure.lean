import WorkingCopies.FileSystem.Fault
import WorkingCopies.Yaml.Error

/-!
# Failures

Everything that can go wrong, by cause. `Failure.message` is the text shown to the user, and
`Failure.cause?` the text of what lies behind a failure that only passes on the fault of another
part.
-/

namespace WorkingCopies

/-- Why an operation failed. -/
inductive Failure where
  /-- A program that has to be there is not installed. -/
  | toolMissing (tool : String)
  /-- A git command could not start or did not succeed. The texts have their secrets hidden. -/
  | commandFailed (command output : String)
  /-- A reference names no branch, no tag and no commit. -/
  | unresolvable (reference : String)
  /-- A value names no kind of reference. -/
  | unknownKind (value : String)
  /-- An entry of the manifest is missing or not as it has to be. -/
  | configuration (problem : String) (hint : Option String)
  /-- The file system refused an operation. -/
  | fileSystem (fault : FileSystem.Fault)
  /-- A YAML text gives no value of the wanted shape. -/
  | yaml (error : Yaml.Error)
  deriving Repr, DecidableEq, Inhabited

namespace Failure

/-- The text of a failure. -/
def message : Failure → String
  | toolMissing tool => "Can't find " ++ tool ++ " binary on PATH"
  | commandFailed command output =>
    "Git command failed: " ++ command ++ (if output.isEmpty then "" else "\n" ++ output)
  | unresolvable reference => "Cannot determine commit type of \"" ++ reference ++ "\""
  | unknownKind value => "Unknown commit type: " ++ value
  | configuration problem hint =>
    "Configuration error: " ++ problem ++ (hint.map ("\n  hint: " ++ ·)).getD ""
  | fileSystem fault => "I/O error: " ++ fault.message
  | yaml error => "YAML parsing error: " ++ error.message

/-- The text of what lies behind a failure. -/
def cause? : Failure → Option String
  | fileSystem fault => some fault.message
  | yaml error => some error.message
  | _ => none

end Failure

end WorkingCopies
