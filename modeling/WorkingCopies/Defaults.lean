import WorkingCopies.Environment
import WorkingCopies.Path

/-!
# Default places

Where files and working copies are looked for when nothing else is said.
-/

namespace WorkingCopies.Defaults

/-- The manifest of a project. -/
def manifest : Path := ⟨"project.yml"⟩

/-- The home of the user, or the folder that the program works in when there is none. -/
def home (environment : Environment) : Path :=
  match environment.get? "HOME" with
  | some path => if path.isEmpty then ⟨"."⟩ else ⟨path⟩
  | none => ⟨"."⟩

/-- The settings of a user. -/
def settings (environment : Environment) : Path :=
  ((home environment).join ⟨".reposync"⟩).join ⟨"repos.yml"⟩

/-- The working copy of a repository. -/
def workingCopy (repository : String) : Path := (⟨"repos"⟩ : Path).join ⟨repository⟩

end WorkingCopies.Defaults
