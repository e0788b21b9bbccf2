import WorkingCopies.Proofs.Configuration.Credentials

/-!
# Which password counts

A declaration that has a login and a password of its own leaves nothing to the settings but one
thing. Settings fill in credentials field by field, and of a written password and one in a variable
the written one counts. So a password written in the settings takes the place of a variable that the
manifest names, and nothing else in the settings has a part in how the repository is reached.
-/

namespace WorkingCopies

variable {name : String} {fields : Fields} {environment : Environment}

/-- The password of credentials that were filled in, where they had one themselves: a written one
counts before a variable, and what was given before what was filled in. -/
theorem Credentials.resolve_fillIn {given : Credentials} (spare : Credentials)
    (h : given.password ≠ "" ∨ given.passwordVariable ≠ "") :
    (given.fillIn spare).resolve environment =
      if given.password ≠ "" then given.password
      else if spare.password ≠ "" then spare.password
      else (environment.get? given.passwordVariable).getD "" := by
  by_cases hpassword : given.password = ""
  · have hvariable : given.passwordVariable ≠ "" := h.resolve_left (not_not_intro hpassword)
    simp [resolve, fillIn, hpassword, hvariable]
  · simp [resolve, fillIn, hpassword]

/-- The URLs of a hosted repository depend on nothing but the login and the password that is
sent. -/
theorem RemoteUrls.hosted_congr {server user repository : String} {credentials other : Credentials}
    (hlogin : credentials.login = other.login)
    (hpassword : credentials.resolve environment = other.resolve environment) :
    hosted server user repository credentials environment =
      hosted server user repository other environment := by
  unfold hosted
  rw [hlogin, hpassword]

/-- Whether two descriptions of a hosted repository lead to the same URLs with the same password. -/
def Hosted.SameAccess (environment : Environment) (hosted other : Hosted) : Prop :=
  hosted.urls environment = other.urls environment ∧
    hosted.password environment = other.password environment

namespace Settings

/-- The password that settings have written down for a repository, which may be empty. -/
def passwordFor (settings : Settings) (name : String) : String :=
  ((settings.get? name).getD {}).password

/-- Settings with nothing but a password for a repository. -/
def ofPassword (name password : String) : Settings where
  credentials := .insert .empty name { password }

/-- Such settings have that password for it. -/
@[simp] theorem passwordFor_ofPassword (name password : String) :
    (ofPassword name password).passwordFor name = password := by
  simp [passwordFor, get?, ofPassword, Table.get?_insert]

end Settings

namespace Manifest

/-- Whether a declaration has a login and a password of its own: a written one, or a variable that
is set. -/
structure GivesAccess (fields : Fields) (environment : Environment) : Prop where
  login : fields.field "login" ≠ ""
  password : fields.field "password" ≠ "" ∨
    fields.field "password_env" ≠ "" ∧
      ∃ value, environment.get? (fields.field "password_env") = some value ∧ value ≠ ""

/-- The password by the order of precedence: the one that the manifest has written down, else the
one that the settings have, else that of the variable which the manifest names. -/
def precedingPassword (fields : Fields) (spare : String) (environment : Environment) : String :=
  if fields.field "password" ≠ "" then fields.field "password"
  else if spare ≠ "" then spare
  else (environment.get? (fields.field "password_env")).getD ""

namespace GivesAccess

/-- The login of a declaration that gives access is its own. -/
theorem login_eq (h : GivesAccess fields environment) (settings : Settings) :
    (hosted name fields settings).credentials.login = fields.field "login" :=
  if_neg (by simpa using h.login)

/-- The password of a declaration that gives access is the one that precedes. -/
theorem password_eq (h : GivesAccess fields environment) (settings : Settings) :
    (hosted name fields settings).password environment =
      precedingPassword fields (settings.passwordFor name) environment :=
  @Credentials.resolve_fillIn environment (given fields) _ (h.password.imp_right And.left)

/-- The URLs of a declaration that gives access are those with its own login and the password that
precedes. -/
theorem urls_eq (h : GivesAccess fields environment) (settings : Settings)
    {credentials : Credentials} (hlogin : credentials.login = fields.field "login")
    (hpassword : credentials.resolve environment =
      precedingPassword fields (settings.passwordFor name) environment) :
    (hosted name fields settings).urls environment =
      Hosted.urls { hosted name fields {} with credentials } environment :=
  RemoteUrls.hosted_congr ((h.login_eq settings).trans hlogin.symm)
    ((h.password_eq settings).trans hpassword.symm)

/-- The repository is reached in the same way with two settings exactly if the same password
precedes. -/
theorem sameAccess_iff (h : GivesAccess fields environment) (settings other : Settings) :
    (hosted name fields settings).SameAccess environment (hosted name fields other) ↔
      precedingPassword fields (settings.passwordFor name) environment =
        precedingPassword fields (other.passwordFor name) environment := by
  rw [← h.password_eq, ← h.password_eq]
  refine ⟨And.right, fun hsame => ⟨?_, hsame⟩⟩
  exact RemoteUrls.hosted_congr ((h.login_eq settings).trans (h.login_eq other).symm) hsame

end GivesAccess

/-- How a repository is reached whose declaration has a login and a password of its own. Settings
without a written password for it change nothing, and none do if the declaration has a written one.
Where it names a variable, a password that the settings have written down is sent instead. -/
theorem access_beside_settings (h : GivesAccess fields environment) :
    let reached (settings : Settings) := hosted name fields settings
    (∀ settings, fields.field "password" ≠ "" ∨ settings.passwordFor name = "" →
      (reached settings).SameAccess environment (reached {})) ∧
    (fields.field "password" = "" → ∀ settings, settings.passwordFor name ≠ "" →
      (reached settings).password environment = settings.passwordFor name ∧
        (reached settings).urls environment =
          Hosted.urls { reached {} with credentials :=
            { login := fields.field "login", password := settings.passwordFor name } }
            environment) ∧
    ((∀ settings other, (reached settings).SameAccess environment (reached other)) ↔
      fields.field "password" ≠ "") := by
  intro reached
  refine ⟨?_, ?_, ?_⟩
  · intro settings hsettings
    rw [h.sameAccess_iff]
    unfold precedingPassword
    rcases hsettings with hwritten | hnone
    · rw [if_pos hwritten, if_pos hwritten]
    · rw [hnone]
      rfl
  · intro hempty settings hspare
    have hpreceding : precedingPassword fields (settings.passwordFor name) environment =
        settings.passwordFor name := by
      rw [precedingPassword, if_neg (not_not_intro hempty), if_pos hspare]
    refine ⟨(h.password_eq settings).trans hpreceding, h.urls_eq settings rfl ?_⟩
    rw [hpreceding]
    exact if_pos hspare
  · constructor
    · intro hall hempty
      -- two settings with different passwords cannot both be without effect
      have hsame := (h.sameAccess_iff _ _).mp
        (hall (.ofPassword name "first") (.ofPassword name "second"))
      simp [precedingPassword, hempty] at hsame
    · intro hwritten settings other
      rw [h.sameAccess_iff, precedingPassword, precedingPassword, if_pos hwritten, if_pos hwritten]

/-- A declaration with a variable for its password, and settings with a login and a variable of
their own: they change nothing. -/
theorem access_beside_settings_of_variable :
    let fields : Fields := .ofList [("type", "github"), ("user", "acme"), ("repo", "widgets"),
      ("login", "ci"), ("password_env", "TOKEN")]
    let environment : Environment := ⟨["OTHER=Zy", "TOKEN=Qx"]⟩
    let settings : Settings := ⟨.ofList [("w", { login := "me", passwordVariable := "OTHER" })]⟩
    GivesAccess fields environment ∧ settings.passwordFor "w" = "" ∧
      (hosted "w" fields settings).SameAccess environment (hosted "w" fields {}) ∧
      ((hosted "w" fields settings).urls environment).authenticated =
        "https://ci:Qx@github.com/acme/widgets.git" := by
  intro fields environment settings
  have haccess : GivesAccess fields environment :=
    ⟨by decide, .inr ⟨by decide, "Qx", by decide, by decide⟩⟩
  have hnone : settings.passwordFor "w" = "" := by decide
  exact ⟨haccess, hnone, (access_beside_settings haccess).1 settings (.inr hnone), by decide⟩

/-- A password in the settings takes the place of a variable that the manifest names and that is
set. -/
theorem settings_outweigh_variable :
    let fields : Fields := .ofList [("type", "github"), ("user", "acme"), ("repo", "widgets"),
      ("login", "ci"), ("password_env", "TOKEN")]
    let environment : Environment := ⟨["TOKEN=Qx"]⟩
    let settings : Settings := .ofPassword "w" "Zy"
    GivesAccess fields environment ∧
      ((hosted "w" fields {}).urls environment).authenticated =
        "https://ci:Qx@github.com/acme/widgets.git" ∧
      ((hosted "w" fields settings).urls environment).authenticated =
        "https://ci:Zy@github.com/acme/widgets.git" ∧
      ¬ ∀ settings other,
        (hosted "w" fields settings).SameAccess environment (hosted "w" fields other) := by
  intro fields environment settings
  have haccess : GivesAccess fields environment :=
    ⟨by decide, .inr ⟨by decide, "Qx", by decide, by decide⟩⟩
  have hfirst : ((hosted "w" fields {}).urls environment).authenticated =
      "https://ci:Qx@github.com/acme/widgets.git" := by decide
  have hsecond : ((hosted "w" fields settings).urls environment).authenticated =
      "https://ci:Zy@github.com/acme/widgets.git" := by decide
  refine ⟨haccess, hfirst, hsecond, fun hall => ?_⟩
  have hsame := congrArg RemoteUrls.authenticated (hall settings {}).1
  rw [hfirst, hsecond] at hsame
  exact absurd hsame (by decide)

end Manifest

end WorkingCopies
