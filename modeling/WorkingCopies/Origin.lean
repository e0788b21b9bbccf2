import WorkingCopies.Git.Run
import WorkingCopies.Reference
import WorkingCopies.RemoteUrls

/-!
# The origin of a working copy

A working copy remembers the URL of its remote. A URL with a password may stand there only while a
command needs it: it is set before the command, and the visible URL is put back after it, whatever
came of the command. Passwords are hidden in everything that is logged.
-/

namespace WorkingCopies.Origin

open Reference (remoteName)

/-- The URL that a working copy remembers. -/
def url (workingCopy : Path) : Operation String :=
  Git.executeText workingCopy ["config", "--get", "remote." ++ remoteName ++ ".url"]

/-- The command that sets the URL of the remote, with a password hidden. -/
def setUrlCommand (url password : String) : Git.Command where
  arguments :=
    ["remote", "set-url", remoteName].map ({ text := · }) ++
      [{ text := url, shown := redact password url }]

/-- Set the URL that a working copy remembers. -/
def setUrl (workingCopy : Path) (url password : String) : Operation Unit := do
  discard ((setUrlCommand url password).within workingCopy).run

/-- Put the visible URL back. A failure is only logged. -/
def restore (workingCopy : Path) (urls : RemoteUrls) (password : String) : Operation Unit := do
  if urls.needAccess then
    match ← (setUrl workingCopy urls.visible password).attempt with
    | .ok () => return
    | .error failure =>
      Operation.report .warning .origin
        ("Failed to restore public origin URL for " ++ workingCopy.text ++ ": " ++
          redact password failure.message)

/-- Do something that may leave the password in the origin, and put the visible URL back. -/
def restoringAfter {α : Type} (workingCopy : Path) (urls : RemoteUrls) (password : String)
    (operation : Operation α) : Operation α := do
  let result ← operation.attempt
  restore workingCopy urls password
  Operation.ofExcept result

/-- Run a command in a working copy while its origin has the URL that lets git in. -/
def runAuthenticated (workingCopy : Path) (urls : RemoteUrls) (password : String)
    (command : Git.Command) : Operation Bytes := do
  if urls.needAccess then
    setUrl workingCopy urls.authenticated password
  restoringAfter workingCopy urls password (command.within workingCopy).run

/-- Set the origin of a working copy right if it is not as expected, and say whether it was not. -/
def repair (workingCopy : Path) (expected password : String) : Operation Bool := do
  let current ← url workingCopy
  if current = expected then
    Operation.report .debug .origin ("Origin of " ++ workingCopy.text ++ " is " ++ expected)
    return false
  else
    Operation.report .warning .origin
      ("Repo's \"origin\" remote points to unexpected URL: " ++ redact password current ++
        "; correcting it to " ++ expected ++ ". Repo contents may be incorrect.")
    setUrl workingCopy expected password
    return true

end WorkingCopies.Origin
