import WorkingCopies.Checkout
import WorkingCopies.FileSystem.Copy
import WorkingCopies.Latch
import WorkingCopies.Origin
import WorkingCopies.Repository.Source
import WorkingCopies.WorkingCopy

/-!
# Repositories

A repository gives working copies: it creates them, brings them up to date and gives single files.
One that is reached over a network is fetched once and not again, for as long as it is in use; a
fetch that failed is tried again. A repository in a folder is copied instead.
-/

namespace WorkingCopies

/-- A repository in use. -/
structure Repository where
  source : Source
  /-- The reference that files are given at. -/
  commit : String := ""
  /-- Whether it has been fetched. -/
  fetched : Latch := {}

/-- Something that is done with a repository. What it did to the repository and the workspace stays
done when it fails. -/
abbrev Task := ReaderT Host (ExceptT Failure (StateM (Repository × Workspace)))

namespace Task

/-- Carry out a task. -/
def carryOut {α : Type} (task : Task α) (host : Host) (repository : Repository)
    (workspace : Workspace) : Except Failure α × Repository × Workspace :=
  (task.run host).run.run (repository, workspace)

/-- An operation as a task that leaves the repository alone. -/
def ofOperation {α : Type} (operation : Operation α) : Task α :=
  fun host (repository, workspace) =>
    let (result, workspace) := operation.carryOut host workspace
    (result, repository, workspace)

/-- An operation does as a task what it does by itself. -/
@[simp] theorem carryOut_ofOperation {α : Type} (operation : Operation α) (host : Host)
    (repository : Repository) (workspace : Workspace) :
    (ofOperation operation).carryOut host repository workspace =
      ((operation.carryOut host workspace).1, repository, (operation.carryOut host workspace).2) :=
  rfl

/-- The source of the repository. -/
def source : Task Source := return (← get).1.source

end Task

namespace Repository

/-- The branch that is cloned before the wanted reference is checked out. -/
def primaryBranch : String := "master"

/-- Fetch from the source into a working copy. A folder has nothing to fetch. -/
def fetchFrom (workingCopy : Path) : Source → Operation Unit
  | .hosted hosted => do
    Operation.report .debug .hosted ("Fetching repo " ++ hosted.repository)
    let environment ← Operation.environment
    discard (Origin.runAuthenticated workingCopy (hosted.urls environment)
      (hosted.password environment) (.plain ["fetch", "--tags"]))
  | .remote url => do
    Operation.report .debug .remote ("Fetching repo " ++ url)
    discard (Git.execute workingCopy ["fetch", "--tags"])
  | .folder _ => return

/-- Fetch into a working copy, unless the repository has been fetched before. -/
def fetch (workingCopy : Path) : Task Unit := fun host (repository, workspace) =>
  let run : StateM Workspace (Except Failure Unit) :=
    (fetchFrom workingCopy repository.source).carryOut host
  let ((result, fetched), workspace) := (repository.fetched.once run).run workspace
  (result, { repository with fetched }, workspace)

/-- Copy a file of a repository that lies in a folder. -/
def copyFileFrom (source : Path) (file : String) (folder : Path) : Operation Unit := do
  let found := source.join ⟨file⟩
  let target := folder.join ⟨file⟩
  Operation.report .debug .localFolder
    ("Fetching file " ++ found.text ++ " to " ++ target.text)
  Operation.edit (FileSystem.copyFile found target)

/-- Write a file of the repository into a folder. Over a network it is the file at the chosen
reference; from a folder, the file as it lies there. -/
def fetchFile (workingCopy : Path) (file : String) (folder : Path) : Task Unit := do
  match ← Task.source with
  | .folder path => Task.ofOperation (copyFileFrom path file folder)
  | _ =>
    fetch workingCopy
    Task.ofOperation (WorkingCopy.showFile workingCopy (← get).1.commit file folder)

/-- Make a working copy of what a source holds, at a reference. -/
def downloadFrom (reference : String) (target : Path) : Source → Operation Unit
  | .hosted hosted => do
    let environment ← Operation.environment
    let urls := hosted.urls environment
    let password := hosted.password environment
    Operation.report .info .hosted
      ("Downloading repository " ++ hosted.repository ++ " (commit: " ++ reference ++ ") from " ++
        urls.visible)
    WorkingCopy.clone urls.authenticated (redact password urls.authenticated) primaryBranch target
    Origin.restoringAfter target urls password (checkout target reference)
  | .remote url => do
    Operation.report .info .remote
      ("Downloading repository " ++ url ++ " (commit: " ++ reference ++ ")")
    WorkingCopy.clone url url primaryBranch target
    checkout target reference
  | .folder path => do
    Operation.report .info .localFolder ("Downloading local repository " ++ path.text)
    Operation.edit (FileSystem.copyFolder path target)
    checkout target reference

/-- Make a working copy at a reference. -/
def download (reference : String) (target : Path) : Task Unit := do
  Task.ofOperation (downloadFrom reference target (← Task.source))

/-- Bring a working copy up to date with a reference. Over a network, what the remote has is merged;
a copy of a folder is made anew. -/
def update (workingCopy : Path) (reference : String) : Task Unit := do
  match ← Task.source with
  | .folder path =>
    Task.ofOperation (WorkingCopy.remove workingCopy)
    Task.ofOperation (downloadFrom reference workingCopy (.folder path))
  | _ =>
    fetch workingCopy
    Task.ofOperation (checkoutAndMerge workingCopy reference)
    Task.ofOperation (checkout workingCopy reference)

/-- Set the origin of a working copy right. A folder is no origin. -/
def repairOrigin (workingCopy : Path) : Source → Operation Unit
  | .hosted hosted => do
    let environment ← Operation.environment
    discard (Origin.repair workingCopy (hosted.urls environment).visible
      (hosted.password environment))
  | .remote url => discard (Origin.repair workingCopy url "")
  | .folder _ => return

end Repository

end WorkingCopies
