import WorkingCopies.Repository.Source
import WorkingCopies.Settings

/-!
# Sources of declared repositories

The field `type` of a declaration says where the repository comes from, and the fields that belong
to the type say where exactly. Credentials for a hosted repository that the manifest leaves empty
are taken from the settings.
-/

namespace WorkingCopies.Manifest

/-- The hosted repository that a declaration describes, whatever its type. -/
def hosted (name : String) (fields : Fields) (settings : Settings) : Hosted :=
  let given : Credentials :=
    { login := fields.field "login"
      password := fields.field "password"
      passwordVariable := fields.field "password_env" }
  { server := fields.field "server"
    user := fields.field "user"
    repository := fields.field "repo"
    credentials := given.fillIn ((settings.get? name).getD {}) }

/-- The source that a declaration describes. -/
def sourceOf (name : String) (fields : Fields) (settings : Settings) : Except Failure Source :=
  match fields.field "type" with
  | "github" => .ok (.hosted (hosted name fields settings))
  | "git" =>
    if (fields.field "url").isEmpty then
      .error (.inManifest ("repo \"" ++ name ++ "\" missing required field \"url\"")
        (some "Add 'url:' to the repository block"))
    else .ok (.remote (fields.field "url"))
  | "local" => .ok (.folder ⟨fields.field "path"⟩)
  | other => .error (.inManifest ("invalid repository type: " ++ other)
      (some "Valid types are github, git and local"))

/-- The source of a repository that the manifest declares. -/
def source (manifest : Manifest) (name : String) (settings : Settings) : Except Failure Source :=
  match manifest.repositories.get? name with
  | some fields => sourceOf name fields settings
  | none => .error (.inManifest ("repo \"" ++ name ++ "\" is not declared")
      (some "Add a `repository.<name>:` block to the manifest"))

end WorkingCopies.Manifest
