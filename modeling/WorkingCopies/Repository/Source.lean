import WorkingCopies.Path
import WorkingCopies.RemoteUrls

/-!
# Where repositories come from

A repository lies on a server that hosts it under a user's name, at a URL that git understands as it
stands, or in a folder of this computer.
-/

namespace WorkingCopies

/-- A repository that a server hosts for a user. -/
structure Hosted where
  /-- The server; the empty text stands for the default one. -/
  server : String
  user : String
  repository : String
  credentials : Credentials
  deriving DecidableEq, Inhabited

namespace Hosted

/-- The server of repositories that name none. -/
def defaultServer : String := "github.com"

/-- The server of a repository. -/
def actualServer (hosted : Hosted) : String :=
  if hosted.server.isEmpty then defaultServer else hosted.server

/-- The URLs of a repository. -/
def urls (hosted : Hosted) (environment : Environment) : RemoteUrls :=
  .hosted hosted.actualServer hosted.user hosted.repository hosted.credentials environment

/-- The password of a repository. -/
def password (hosted : Hosted) (environment : Environment) : String :=
  hosted.credentials.resolve environment

end Hosted

/-- Where a repository comes from. -/
inductive Source where
  | hosted (hosted : Hosted)
  | remote (url : String)
  | folder (path : Path)
  deriving DecidableEq, Inhabited

end WorkingCopies
