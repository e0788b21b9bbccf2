import WorkingCopies.Reference.Classify

/-!
# Checking out

A working copy is put on a reference, and its submodules follow. Nothing can be merged into a tag,
so a local branch of the same name is made for it. An update merges what the remote has to offer
into the reference; a merge that is not possible does no harm.
-/

namespace WorkingCopies

open Git (execute)

/-- Bring the submodules to what the working copy asks for. -/
def updateSubmodules (workingCopy : Path) : Operation Unit := do
  discard (execute workingCopy ["submodule", "init"])
  discard (execute workingCopy ["submodule", "update"])

/-- Put a working copy on a reference of a known kind. A branch that only the remote has is checked
out by its bare name, so that git makes a local branch that follows it. -/
def checkoutKind (workingCopy : Path) (reference : String) (kind : Reference.Kind) :
    Operation Unit := do
  let name := Reference.qualify reference kind
  if kind = .tag then
    Operation.report .debug .checkout ("Will create new branch " ++ reference ++ " from " ++ name)
    discard (execute workingCopy ["checkout", name, "-b", reference])
  else
    Operation.report .debug .checkout ("Will checkout " ++ name)
    discard (execute workingCopy ["checkout", reference])

/-- Put a working copy on a reference. -/
def checkout (workingCopy : Path) (reference : String) : Operation Unit := do
  let kind ← Reference.classify workingCopy reference
  checkoutKind workingCopy reference kind
  updateSubmodules workingCopy

/-- The kind under which a reference is merged: a local branch is merged with the branch of the
remote. -/
def mergedKind : Reference.Kind → Reference.Kind
  | .localBranch => .remoteBranch
  | kind => kind

/-- Merge a reference without a commit, and say whether that was done. A failure is only logged. -/
def tryMerge (workingCopy : Path) (reference : String) : Operation Bool := do
  match ← (Reference.classify workingCopy reference).attempt with
  | .error failure =>
    Operation.report .debug .checkout ("Not merging " ++ reference ++ ": " ++ failure.message)
    return false
  | .ok kind =>
    let name := Reference.qualify reference (mergedKind kind)
    match ← (execute workingCopy ["merge", "--no-commit", "--no-ff", name]).attempt with
    | .ok _ =>
      Operation.report .debug .checkout ("Merging changes from " ++ name)
      return true
    | .error failure =>
      Operation.report .debug .checkout
        ("Merging changes from " ++ name ++ ": " ++ failure.message)
      return false

/-- Put a working copy on a reference and merge what the remote has. What the remote has must have
been fetched before. -/
def checkoutAndMerge (workingCopy : Path) (reference : String) : Operation Unit := do
  checkout workingCopy reference
  discard (tryMerge workingCopy reference)

end WorkingCopies
