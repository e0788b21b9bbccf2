import WorkingCopies.Credentials

/-!
# URLs of a hosted repository

A hosted repository has a public URL and one that carries a login and its password. The two are
the same without a login.
-/

namespace WorkingCopies

/-- The two URLs of a remote repository. -/
structure RemoteUrls where
  /-- The URL that lets git in. -/
  authenticated : String
  /-- The URL that may be shown and kept. -/
  visible : String
  deriving DecidableEq, Inhabited

namespace RemoteUrls

/-- The URLs of a repository that a user has on a server. -/
def hosted (server user repository : String) (credentials : Credentials)
    (environment : Environment) : RemoteUrls :=
  let address := server ++ "/" ++ user ++ "/" ++ repository ++ ".git"
  let access :=
    if credentials.login.isEmpty then ""
    else credentials.login ++ ":" ++ credentials.resolve environment ++ "@"
  { authenticated := "https://" ++ access ++ address, visible := "https://" ++ address }

/-- Whether the two URLs differ. -/
def needAccess (urls : RemoteUrls) : Bool := urls.authenticated ≠ urls.visible

end RemoteUrls

end WorkingCopies
