import WorkingCopies.Manifest.Source
import WorkingCopies.Operation
import WorkingCopies.Repository

/-!
# Reading manifests and settings from files

A manifest has to be there. Settings need not be: without a file there are none.
-/

namespace WorkingCopies

/-- Read a manifest from a text. -/
def Manifest.parse (text : String) : Operation Manifest := do
  let (result, notes) := Manifest.read text
  Operation.reportAll notes
  Operation.ofExcept result

/-- Read a manifest from a file. -/
def Manifest.load (path : Path) : Operation Manifest := do
  Manifest.parse (← Operation.askFiles (·.textAt path))

/-- Read settings from a text. -/
def Settings.parse (text : String) : Operation Settings := Operation.ofExcept (Settings.read text)

/-- Read settings from a file. -/
def Settings.load (path : Path) : Operation Settings := do
  match (← get).files.textAt path with
  | .ok text => Settings.parse text
  | .error fault =>
    if fault.saysMissing then
      Operation.report .debug .configuration ("No settings file at " ++ path.text)
      return {}
    else throw (.fileSystem fault)

/-- A repository that a manifest declares, ready for use. -/
def Manifest.repository (manifest : Manifest) (name : String) (settings : Settings) :
    Operation Repository := do
  return { source := ← Operation.ofExcept (manifest.source name settings) }

end WorkingCopies
