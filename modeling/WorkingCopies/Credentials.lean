import WorkingCopies.Environment
import WorkingCopies.Masking
import WorkingCopies.Text.Quoted

/-!
# Credentials

What it takes to reach a private repository. The password is written down or left in an
environment variable; where both are given, the written one counts.
-/

namespace WorkingCopies

/-- A login and where its password comes from. -/
structure Credentials where
  login : String := ""
  /-- The password itself. -/
  password : String := ""
  /-- The name of an environment variable that holds the password. -/
  passwordVariable : String := ""
  deriving DecidableEq, Inhabited

namespace Credentials

/-- The password that is sent: the written one, else that of the variable, else the empty one. -/
def resolve (credentials : Credentials) (environment : Environment) : String :=
  if credentials.password ≠ "" then credentials.password
  else (environment.get? credentials.passwordVariable).getD ""

/-- A text for people who may not know the password. -/
def description (credentials : Credentials) : String :=
  let password := if credentials.password.isEmpty then "" else hiddenPassword
  "Credentials \x7b login: " ++ Text.quoted credentials.login ++
    ", password: " ++ Text.quoted password ++
    ", password_env: " ++ Text.quoted credentials.passwordVariable ++ " \x7d"

/-- Fill in what is missing. A field that is given stays as it is. -/
def fillIn (credentials spare : Credentials) : Credentials where
  login := if credentials.login.isEmpty then spare.login else credentials.login
  password := if credentials.password.isEmpty then spare.password else credentials.password
  passwordVariable :=
    if credentials.passwordVariable.isEmpty then spare.passwordVariable
    else credentials.passwordVariable

end Credentials

end WorkingCopies
