import WorkingCopies.Failure
import WorkingCopies.Log
import WorkingCopies.Table
import WorkingCopies.Text.Replace
import WorkingCopies.Yaml.Document

/-!
# Manifests

A manifest is a YAML mapping. It may name the project and list the repositories that the project
uses; every key `repository.` with a name behind it declares a repository by a mapping of fields.
Fields are texts, and numbers and truth values are taken as they would be written. What is neither
is passed over with a note.
-/

namespace WorkingCopies

open Yaml (Value)

/-- The fields of a declared repository. -/
abbrev Fields := Table String

/-- The value of a field, which is empty when the field is missing. -/
def Table.field (fields : Fields) (name : String) : String := (fields.get? name).getD ""

/-- What a manifest says. -/
structure Manifest where
  projectName : Option String := none
  /-- The repositories that the project uses. -/
  used : List String := []
  /-- The declared repositories. -/
  repositories : Table Fields := .empty

/-- The failure that something in the manifest is not as it has to be. -/
def Failure.inManifest (problem : String) (hint : Option String := none) : Failure :=
  .configuration ("error loading project.yml: " ++ problem) hint

/-- The entries of the mapping that a configuration text has to be. The empty document counts as the
empty mapping. -/
def configurationEntries (text : String) : Except Failure (List (Value × Value)) :=
  match Yaml.parse text with
  | .error error => .error (.yaml error)
  | .ok (.mapping entries) => .ok entries
  | .ok .null => .ok []
  | .ok _ => .error (.inManifest "top level must be a mapping"
      (some "Use `repository.<name>:` keys at the top level"))

/-- The name of the repository that a key declares. -/
def declaredName? (key : Value) : Option String :=
  key.text?.bind fun text =>
    (Text.stripInitial? "repository.".toList text.toList).map String.ofList

/-- The declarations among the entries of a configuration. -/
def declarations (entries : List (Value × Value)) : List (String × Value) :=
  entries.filterMap fun entry => (declaredName? entry.1).map fun name => (name, entry.2)

namespace Manifest

/-- The field that an entry of a declaration gives. -/
def field? (entry : Value × Value) : Option (String × String) := do
  return (← entry.1.text?, ← entry.2.scalarText?)

/-- The fields that a declaration gives. -/
def fields (entries : List (Value × Value)) : Fields := .ofList (entries.filterMap field?)

/-- The fields of a repository, which have to be a mapping. -/
def declaredFields (name : String) : Value → Except Failure Fields
  | .mapping entries => .ok (fields entries)
  | _ => .error (.inManifest ("repo \"" ++ name ++ "\" must be a mapping of fields"))

/-- The repositories that are listed as used. -/
def usedNames (entries : List (Value × Value)) : Except Failure (List String) :=
  match Value.lookup? entries "project.repositories" with
  | none => .ok []
  | some value =>
    match value.asTexts with
    | .ok names => .ok names
    | .error error => .error (.inManifest ("invalid project.repositories: " ++ error.message))

/-- The declared repositories with their fields. -/
def declaredRepositories (entries : List (Value × Value)) : Except Failure (Table Fields) :=
  (declarations entries).foldlM (fun table (name, value) => do
    return table.insert name (← declaredFields name value)) .empty

/-- What the entries of a manifest say. -/
def ofEntries (entries : List (Value × Value)) : Except Failure Manifest := do
  let projectName := (Value.lookup? entries "project.name").bind Value.scalarText?
  let used ← usedNames entries
  let repositories ← declaredRepositories entries
  return { projectName, used, repositories }

/-- The note that a field is passed over. -/
def passedOver (repository : String) : Log.Entry where
  level := .debug
  topic := .configuration
  text := "Ignoring non-scalar field in repo " ++ repository

/-- The notes on declarations, up to the first one that is no mapping. -/
def notesOn : List (String × Value) → List Log.Entry
  | (name, .mapping entries) :: rest =>
    List.replicate (entries.countP fun entry => (field? entry).isNone) (passedOver name) ++
      notesOn rest
  | _ => []

/-- The notes taken while a manifest is read. -/
def notes (entries : List (Value × Value)) : List Log.Entry :=
  match usedNames entries with
  | .ok _ => notesOn (declarations entries)
  | .error _ => []

/-- Read a manifest and take notes. -/
def read (text : String) : Except Failure Manifest × List Log.Entry :=
  match configurationEntries text with
  | .ok entries => (ofEntries entries, notes entries)
  | .error failure => (.error failure, [])

end Manifest

end WorkingCopies
