import WorkingCopies.Credentials
import WorkingCopies.Manifest

/-!
# Settings

The settings of a user hold credentials for repositories, under the same keys that declare
repositories in a manifest. Fields that are no part of credentials are passed over; those that are
have to be texts.
-/

namespace WorkingCopies

open Yaml (Value)

/-- The credentials that a user has set for repositories. -/
structure Settings where
  credentials : Table Credentials := .empty

namespace Settings

/-- The parts of credentials that settings can give. -/
inductive Part where
  | login
  | password
  | passwordVariable
  deriving DecidableEq

/-- The part that a field gives. -/
def part? : String → Option Part
  | "login" => some .login
  | "password" => some .password
  | "password_env" => some .passwordVariable
  | _ => none

/-- Credentials with one part replaced. -/
def setPart (credentials : Credentials) (value : String) : Part → Credentials
  | .login => { credentials with login := value }
  | .password => { credentials with password := value }
  | .passwordVariable => { credentials with passwordVariable := value }

/-- Read the fields of credentials on. A part can be given once. -/
def readParts (credentials : Credentials) (given : List Part) :
    List (Value × Value) → Except Yaml.Error Credentials
  | [] => .ok credentials
  | (key, value) :: entries => do
    let name ← key.asText "field identifier"
    match part? name with
    | none => readParts credentials given entries
    | some part =>
      if given.contains part then
        throw (.repeatedField name)
      let text ← value.asText "a string"
      readParts (setPart credentials text part) (part :: given) entries

/-- The credentials that a value gives. Nothing gives empty ones. -/
def readCredentials (value : Value) : Except Yaml.Error Credentials :=
  match value.untagged with
  | .mapping entries => readParts {} [] entries
  | .null => .ok {}
  | other => .error (.wrongShape other.describe "struct CredentialEntry")

/-- The settings that the entries of a configuration give. -/
def ofEntries (entries : List (Value × Value)) : Except Failure Settings := do
  let credentials ← (declarations entries).foldlM (fun table (name, value) =>
    match readCredentials value with
    | .ok credentials => .ok (table.insert name credentials)
    | .error error => .error (.yaml error)) .empty
  return { credentials }

/-- Read settings. -/
def read (text : String) : Except Failure Settings := do ofEntries (← configurationEntries text)

/-- The credentials set for a repository. -/
def get? (settings : Settings) (repository : String) : Option Credentials :=
  settings.credentials.get? repository

end Settings

end WorkingCopies
