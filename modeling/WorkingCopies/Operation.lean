import WorkingCopies.Environment
import WorkingCopies.Failure
import WorkingCopies.FileSystem.Edit
import WorkingCopies.Git.Call
import WorkingCopies.Log

/-!
# Operations

An operation works on files and runs git. It may fail, and what it did before it failed stays done:
the files, the calls of git and the log are all kept.
-/

namespace WorkingCopies

/-- What an operation finds and cannot change. -/
structure Host where
  /-- Git, if it is installed. -/
  git : Option Git
  environment : Environment

/-- What an operation changes. -/
structure Workspace where
  files : FileSystem
  /-- The calls of git, the last one first. -/
  calls : List Git.Call := []
  /-- The log, the last entry first. -/
  log : List Log.Entry := []

/-- Something that is done on a host, in a workspace. -/
abbrev Operation := ReaderT Host (ExceptT Failure (StateM Workspace))

namespace Operation

/-- Carry out an operation. -/
def carryOut {α : Type} (operation : Operation α) (host : Host) (workspace : Workspace) :
    Except Failure α × Workspace :=
  (operation.run host).run.run workspace

/-- What comes of a computation that ends in success or failure. -/
def ofExcept {α : Type} (result : Except Failure α) : Operation α :=
  match result with
  | .ok value => return value
  | .error failure => throw failure

/-- The result of an operation, whether it succeeds or fails. -/
def attempt {α : Type} (operation : Operation α) : Operation (Except Failure α) :=
  fun host workspace =>
    let (result, workspace) := operation.carryOut host workspace
    (.ok result, workspace)

/-- Write an entry to the log. -/
def report (level : Log.Level) (topic : Log.Topic) (text : String) : Operation Unit :=
  modify fun workspace => { workspace with log := ⟨level, topic, text⟩ :: workspace.log }

/-- Write entries to the log. -/
def reportAll (entries : List Log.Entry) : Operation Unit :=
  modify fun workspace => { workspace with log := entries.reverse ++ workspace.log }

/-- Ask something about the files. -/
def askFiles {α : Type} (question : FileSystem → Except FileSystem.Fault α) :
    Operation α := do
  match question (← get).files with
  | .ok answer => return answer
  | .error fault => throw (.fileSystem fault)

/-- Change the files. -/
def edit {α : Type} (change : FileSystem.Edit α) : Operation α := do
  let workspace ← get
  let (result, files) := change.run.run workspace.files
  set { workspace with files }
  match result with
  | .ok value => return value
  | .error fault => throw (.fileSystem fault)

/-- The environment. -/
def environment : Operation Environment := return (← read).environment

section CarryOut

variable {α β : Type} (host : Host) (workspace : Workspace)

/-- Giving a value changes nothing. -/
@[simp] theorem carryOut_pure (value : α) :
    (pure value : Operation α).carryOut host workspace = (.ok value, workspace) := rfl

/-- Failing changes nothing. -/
@[simp] theorem carryOut_throw (failure : Failure) :
    (throw failure : Operation α).carryOut host workspace = (.error failure, workspace) := rfl

/-- What follows an operation starts where the operation ended, and is left out when it failed. -/
theorem carryOut_bind (operation : Operation α) (next : α → Operation β) :
    (operation >>= next).carryOut host workspace =
      match operation.carryOut host workspace with
      | (.ok value, after) => (next value).carryOut host after
      | (.error failure, after) => (.error failure, after) := by
  simp only [carryOut, ReaderT.run_bind, ExceptT.run_bind, StateT.run_bind]
  show (match (operation.run host).run.run workspace with | (result, after) => _) = _
  cases (operation.run host).run.run workspace with
  | mk result after => cases result <;> rfl

/-- An attempt does what the operation does, and does not fail. -/
@[simp] theorem carryOut_attempt (operation : Operation α) :
    operation.attempt.carryOut host workspace =
      (.ok (operation.carryOut host workspace).1, (operation.carryOut host workspace).2) := rfl

/-- A result that is there already is given, and changes nothing. -/
@[simp] theorem carryOut_ofExcept (result : Except Failure α) :
    (ofExcept result).carryOut host workspace = (result, workspace) := by
  cases result <;> rfl

/-- A report changes the log alone. -/
@[simp] theorem carryOut_report (level : Log.Level) (topic : Log.Topic) (text : String) :
    (report level topic text).carryOut host workspace =
      (.ok (), { workspace with log := ⟨level, topic, text⟩ :: workspace.log }) := rfl

end CarryOut

end Operation

end WorkingCopies
