import WorkingCopies.Git.Run
import WorkingCopies.Reference

/-!
# What a reference names in a working copy

Git is asked in a fixed order, and the first answer counts: `HEAD` is a commit; a reference that
leads to a commit is a local branch if there is a branch of that name, and a commit if there is no
tag of that name either; else it may be a branch of the remote, and else a tag. A name that is both
a tag and a branch of the remote is the branch.
-/

namespace WorkingCopies.Reference

open Git (execute executeText succeeds)

/-- Whether a name leads to a commit: it then has a common ancestor with itself. -/
def leadsToCommit (workingCopy : Path) (name : String) : Operation Bool :=
  succeeds workingCopy ["merge-base", name, name]

/-- Whether a reference exists under its full name. -/
def fullNameExists (workingCopy : Path) (name : String) : Operation Bool :=
  succeeds workingCopy ["show-ref", "--verify", "--quiet", name]

/-- Whether there is a local branch of a name. -/
def branchExists (workingCopy : Path) (branch : String) : Operation Bool :=
  fullNameExists workingCopy ("refs/heads/" ++ branch)

/-- Whether there is a tag of a name. -/
def tagExists (workingCopy : Path) (tag : String) : Operation Bool :=
  fullNameExists workingCopy ("refs/tags/" ++ tag)

/-- What a reference names that is no local branch and no commit as it stands. -/
def classifyQualified (workingCopy : Path) (reference : String) : Operation Kind := do
  if ← leadsToCommit workingCopy (qualify reference .remoteBranch) then return .remoteBranch
  if ← leadsToCommit workingCopy (qualify reference .tag) then return .tag
  throw (.unresolvable reference)

/-- What a reference names. -/
def classify (workingCopy : Path) (reference : String) : Operation Kind := do
  if reference = "HEAD" then return .hash
  if ← leadsToCommit workingCopy reference then
    if ← branchExists workingCopy reference then return .localBranch
    if !(← tagExists workingCopy reference) then return .hash
  classifyQualified workingCopy reference

/-- A reference as git has to be given it. -/
def qualifiedName (workingCopy : Path) (reference : String) : Operation String := do
  return qualify reference (← classify workingCopy reference)

end WorkingCopies.Reference
