import WorkingCopies.Repository

/-!
# Requests to a repository

All that can be asked of a repository in use, as data, and the answers. Requests are served one
after the other; a failed one does not keep the next from being served.
-/

namespace WorkingCopies.Repository

/-- Something asked of a repository. -/
inductive Request where
  /-- Which reference is chosen? -/
  | commit
  /-- Choose a reference. -/
  | setCommit (reference : String)
  | fetchFile (workingCopy : Path) (file : String) (folder : Path)
  | download (reference : String) (target : Path)
  | update (workingCopy : Path) (reference : String)
  | repairOrigin (workingCopy : Path)
  | hashOf (workingCopy : Path) (reference : String)
  | namesOf (workingCopy : Path) (reference : String)
  | kindOf (workingCopy : Path) (reference : String)
  | hasChanges (workingCopy : Path)
  deriving Repr, DecidableEq

/-- An answer to a request. -/
inductive Answer where
  | done
  | text (text : String)
  | texts (texts : List String)
  | kind (kind : Reference.Kind)
  | flag (flag : Bool)
  deriving Repr, DecidableEq

namespace Request

/-- Serve a request. -/
def serve : Request → Task Answer
  | commit => return .text (← get).1.commit
  | setCommit reference => do
    modify fun (repository, workspace) => ({ repository with commit := reference }, workspace)
    return .text reference
  | fetchFile workingCopy file folder => do
    Repository.fetchFile workingCopy file folder
    return .done
  | download reference target => do
    Repository.download reference target
    return .done
  | update workingCopy reference => do
    Repository.update workingCopy reference
    return .done
  | repairOrigin workingCopy => do
    Task.ofOperation (Repository.repairOrigin workingCopy (← Task.source))
    return .done
  | hashOf workingCopy reference => do
    return .text (← Task.ofOperation (WorkingCopy.hashOf workingCopy reference))
  | namesOf workingCopy reference => do
    return .texts (← Task.ofOperation (WorkingCopy.namesOf workingCopy reference))
  | kindOf workingCopy reference => do
    return .kind (← Task.ofOperation (Reference.classify workingCopy reference))
  | hasChanges workingCopy => do
    return .flag (← Task.ofOperation (WorkingCopy.hasChanges workingCopy))

/-- Serve requests one after the other. -/
def serveAll (host : Host) (repository : Repository) (workspace : Workspace) :
    List Request → List (Except Failure Answer) × Repository × Workspace
  | [] => ([], repository, workspace)
  | request :: requests =>
    let (answer, repository, workspace) := request.serve.carryOut host repository workspace
    let (answers, rest) := serveAll host repository workspace requests
    (answer :: answers, rest)

end Request

end WorkingCopies.Repository
