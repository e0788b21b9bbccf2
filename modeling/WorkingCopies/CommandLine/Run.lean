import WorkingCopies.CommandLine.Arguments
import WorkingCopies.CommandLine.Problem
import WorkingCopies.Configuration
import WorkingCopies.Log.Line
import WorkingCopies.Text.JsonString

/-!
# Running a command line

A command that succeeds prints its result; one that fails prints nothing but a report of the
problem. The log goes to the error output, as far as it is wanted.
-/

namespace WorkingCopies.CommandLine

/-- The work of a command. -/
abbrev Work := ReaderT Host (ExceptT Problem (StateM Workspace))

namespace Work

/-- An operation as part of a command. -/
def ofOperation {α : Type} (problem : Failure → Problem) (operation : Operation α) : Work α :=
  fun host workspace =>
    let (result, workspace) := operation.carryOut host workspace
    (result.mapError problem, workspace)

/-- A task on a repository as part of a command. -/
def ofTask {α : Type} (repository : Repository) (task : Task α) : Work (α × Repository) :=
  fun host workspace =>
    let (result, repository, workspace) := task.carryOut host repository workspace
    (match result with
      | .ok value => .ok (value, repository)
      | .error failure => .error (.failed failure), workspace)

/-- Load the manifest. -/
def loadManifest (options : Options) : Work Manifest :=
  ofOperation (.loading "manifest" options.manifest) (Manifest.load options.manifest)

/-- Load the settings. -/
def loadSettings (options : Options) : Work Settings := do
  let path := options.settings.getD (Defaults.settings (← read).environment)
  ofOperation (.loading "settings" path) (Settings.load path)

/-- Get a declared repository ready for use. -/
def repository (options : Options) (name : String) : Work Repository := do
  let manifest ← loadManifest options
  let settings ← loadSettings options
  ofOperation .failed (manifest.repository name settings)

end Work

/-- The place of the working copy of a target. -/
def Target.place (target : Target) : Path :=
  target.workingCopy.getD (Defaults.workingCopy target.repository)

namespace Command

/-- A text and blanks behind it to a number of characters. -/
def padRight (width : Nat) (text : String) : String :=
  text ++ String.ofList (List.replicate (width - text.length) ' ')

/-- Where the fields of a repository say that it comes from. -/
def sourceColumn (fields : Fields) : String :=
  match fields.field "type" with
  | "github" =>
    let server := fields.field "server"
    (if server.isEmpty then Hosted.defaultServer else server) ++ "/" ++ fields.field "user" ++
      "/" ++ fields.field "repo"
  | "git" => fields.field "url"
  | "local" => fields.field "path"
  | _ => ""

/-- The row of a repository, with a star if the project uses it. -/
def row (used : Bool) (name : String) (fields : Fields) : String :=
  (if used then "*" else " ") ++ " " ++ padRight 20 name ++ " " ++
    padRight 8 ((fields.get? "type").getD "?") ++ " " ++ sourceColumn fields

/-- The rows for the repositories of a manifest. -/
def rows (usedOnly : Bool) (manifest : Manifest) : List String :=
  manifest.repositories.entries.filterMap fun (name, fields) =>
    let used := manifest.used.contains name
    if usedOnly && !used then none else some (row used name fields)

/-- The lines that list the repositories of a manifest. -/
def listLines (colour : Colour) (options : Options) (usedOnly : Bool) (manifest : Manifest) :
    List String :=
  let title := manifest.projectName.toList.map fun name =>
    colour.choose "📦" "[PROJECT]" ++ " " ++ name
  let rows := rows usedOnly manifest
  title ++ if rows.isEmpty then ["No repositories declared in " ++ options.manifest.text] else rows

/-- The work of `download`. -/
def runDownload (options : Options) (colour : Colour) (target : Target) (reference : String) :
    Work (List String) := do
  let place := target.place
  if (← get).files.leadsAnywhere place then
    throw (.refused ("Working copy " ++ place.text ++
      " already exists; use `reposync update` instead"))
  let repository ← Work.repository options target.repository
  let (commit, _) ← Work.ofTask { repository with commit := reference } do
    Repository.download reference place
    Task.ofOperation (WorkingCopy.hashOf place "HEAD")
  return [colour.choose "📥" "[OK]" ++ " " ++ target.repository ++ " is at " ++ reference ++
    " (" ++ commit ++ ")"]

/-- The work of `update`. -/
def runUpdate (options : Options) (colour : Colour) (target : Target) (reference : String) :
    Work (List String) := do
  let place := target.place
  let repository ← Work.repository options target.repository
  if (← get).files.leadsAnywhere place then
    if ← Work.ofOperation .failed (WorkingCopy.hasChanges place) then
      throw (.refused (place.text ++
        " has uncommitted changes; commit or discard them before updating"))
  let (commit, _) ← Work.ofTask { repository with commit := reference } do
    Repository.update place reference
    Task.ofOperation (Repository.repairOrigin place repository.source)
    Task.ofOperation (WorkingCopy.hashOf place "HEAD")
  return [colour.choose "🔄" "[OK]" ++ " " ++ target.repository ++ " updated to " ++ reference ++
    " (" ++ commit ++ ")"]

/-- The work of a command, and the lines that it prints. -/
def run (options : Options) (colour : Colour) : Command → Work (List String)
  | download target reference => runDownload options colour target reference
  | update target reference => runUpdate options colour target reference
  | fetchFile target file reference folder => do
    let repository ← Work.repository options target.repository
    discard (Work.ofTask { repository with commit := reference }
      (Repository.fetchFile target.place file folder))
    return [colour.choose "📄" "[OK]" ++ " Wrote " ++ (folder.join ⟨file⟩).text]
  | hash target reference => do
    discard (Work.repository options target.repository)
    return [← Work.ofOperation .failed (WorkingCopy.hashOf target.place reference)]
  | names target reference asJson => do
    discard (Work.repository options target.repository)
    let names ← Work.ofOperation .failed (WorkingCopy.namesOf target.place reference)
    return if asJson then [Text.jsonArray names] else names
  | kind target reference => do
    discard (Work.repository options target.repository)
    let kind ← Work.ofOperation .failed (Reference.classify target.place reference)
    return [kind.name]
  | status target => do
    discard (Work.repository options target.repository)
    if ← Work.ofOperation .failed (WorkingCopy.hasChanges target.place) then
      return [colour.choose "📝" "[MODIFIED]" ++ " " ++ target.repository ++
        " has uncommitted changes"]
    else return [colour.choose "✅" "[CLEAN]" ++ " " ++ target.repository ++ " is clean"]
  | repairOrigin target => do
    let repository ← Work.repository options target.repository
    Work.ofOperation .failed (Repository.repairOrigin target.place repository.source)
    return []
  | list usedOnly => do
    return listLines colour options usedOnly (← Work.loadManifest options)

end Command

/-- What came of a command line. -/
structure Outcome where
  /-- Zero for success, one for a failure, two for a command line that is not understood. -/
  status : Nat
  output : String
  errorOutput : String
  workspace : Workspace

/-- Lines, each with its end. -/
def unlines (lines : List String) : String := String.join (lines.map (· ++ "\n"))

/-- Run a command with its options. -/
def Request.run (request : Request) (host : Host) (workspace : Workspace) : Outcome :=
  let colour := Colour.ofSetting request.options.colour host.environment
  let specification :=
    ((host.environment.get? "RUST_LOG").map Log.Specification.read).getD {}
  let filter := Log.Filter.of request.options.threshold specification
  let (result, after) := ((request.command.run request.options colour).run host).run.run workspace
  let written := after.log.take (after.log.length - workspace.log.length)
  let complaints := specification.complaints.map fun complaint =>
    "warning: " ++ complaint ++ ", ignoring it\n"
  let log := String.join
    (complaints ++ (written.reverse.filter filter.shows).map fun entry => entry.line colour)
  match result with
  | .ok lines =>
    { status := 0, output := unlines lines, errorOutput := log, workspace := after }
  | .error problem =>
    { status := 1, output := "", errorOutput := log ++ problem.report, workspace := after }

/-- Run a command line. -/
def run (arguments : List String) (host : Host) (workspace : Workspace) : Outcome :=
  match Request.read arguments host.environment with
  | .ok request => request.run host workspace
  | .error .version =>
    { status := 0, output := "reposync 0.1.0\n", errorOutput := "", workspace }
  | .error (.usage problem) =>
    { status := 2, output := "", errorOutput := "error: " ++ problem ++ "\n", workspace }

end WorkingCopies.CommandLine
