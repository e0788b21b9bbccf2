import WorkingCopies.Reference.Classify
import WorkingCopies.Text.Lines

/-!
# Working copies

What can be asked of a working copy, and how one comes into being and goes away.
-/

namespace WorkingCopies.WorkingCopy

open Git (execute executeText)
open Reference (qualifiedName)

/-- The hash of the commit that a reference names. -/
def hashOf (workingCopy : Path) (reference : String) : Operation String := do
  let name ← qualifiedName workingCopy reference
  executeText workingCopy ["rev-parse", "--verify", name ++ "^\x7bcommit\x7d"]

/-- Names in their order. -/
def sortNames (names : List String) : List String := names.mergeSort fun a b => a ≤ b

/-- The lines of a text that are not empty. -/
def filledLines (text : String) : List String := (Text.lines text).filter fun line => !line.isEmpty

/-- The hash of the commit that a reference names and all names of that commit, in order. -/
def namesOf (workingCopy : Path) (reference : String) : Operation (List String) := do
  let hash ← hashOf workingCopy reference
  let listed ← executeText workingCopy
    ["for-each-ref", "--format=%(refname:short)", "--points-at", hash]
  return sortNames (hash :: filledLines listed)

/-- Whether git reports a changed file. -/
def hasChanges (workingCopy : Path) : Operation Bool := do
  return !(← execute workingCopy ["diff", "--name-only"]).isEmpty

/-- Write a file as it is at a reference into a folder. -/
def showFile (workingCopy : Path) (reference file : String) (folder : Path) : Operation Unit := do
  Operation.edit (FileSystem.createFolders folder)
  let name ← qualifiedName workingCopy reference
  let target := folder.join ⟨file⟩
  Operation.report .debug .workingCopy ("Fetching file " ++ file ++ " to " ++ target.text)
  let contents ← execute workingCopy ["show", name ++ ":" ++ file]
  if let some parent := target.parent? then
    Operation.edit (FileSystem.createFolders parent)
  Operation.edit (FileSystem.writeFile target contents)

/-- The command that clones a branch. The URL is shown in another form. -/
def cloneCommand (url shown branch : String) (target : Path) : Git.Command where
  arguments :=
    ["clone", "-b", branch].map ({ text := · }) ++
      [{ text := url, shown }, { text := target.text }]

/-- Clone a branch. The folder that the working copy goes into is made if it is missing. -/
def clone (url shown branch : String) (target : Path) : Operation Unit := do
  if let some parent := target.parent? then
    Operation.edit (FileSystem.createFolders parent)
  discard (cloneCommand url shown branch target).run

/-- Remove a working copy. One that is missing counts as removed. -/
def remove (workingCopy : Path) : Operation Unit := do
  match ← (Operation.edit (FileSystem.removeTree workingCopy)).attempt with
  | .ok () => return
  | .error (.fileSystem fault) =>
    unless fault.saysMissing do throw (.fileSystem fault)
  | .error failure => throw failure

end WorkingCopies.WorkingCopy
