import WorkingCopies.FileSystem.Resolve

/-!
# Git as seen from outside

Git is whatever answers commands. It is started in a folder with some arguments, may change files,
and replies with an exit status and what it wrote. The system may also refuse to start it, for a
reason that is known by its words alone. All this may depend on everything that went before, so git
is a function of the calls so far and of the files it finds.
-/

namespace WorkingCopies.Git

open FileSystem (Location)

/-- What git is asked to do. -/
structure Request where
  /-- The place of the folder that git is started in. -/
  folder : Location
  arguments : List String
  deriving DecidableEq

/-- What git replies. -/
structure Reply where
  /-- The exit status; zero says that the command succeeded. -/
  status : Nat := 0
  output : Bytes := []
  errorOutput : Bytes := []
  deriving DecidableEq, Inhabited

/-- What became of an attempt to run git. -/
inductive Outcome where
  /-- Git could not be started, or the system refused to start it. -/
  | notStarted (fault : FileSystem.Fault)
  /-- Git was started in a folder and replied. -/
  | finished (folder : Location) (reply : Reply)
  deriving DecidableEq

/-- An attempt to run git, with the files before and after it. -/
structure Call where
  /-- The folder as the command named it. -/
  folder : Option Path
  arguments : List String
  outcome : Outcome
  before : FileSystem
  after : FileSystem

namespace Call

/-- Whether git was started and the command succeeded. -/
def succeeded (call : Call) : Bool :=
  match call.outcome with
  | .finished _ reply => reply.status == 0
  | .notStarted _ => false

/-- Whether git was started. -/
def started (call : Call) : Bool :=
  match call.outcome with
  | .finished .. => true
  | .notStarted _ => false

end Call

end Git

/-- An installed git: its reply to a request, and the files it leaves, from the calls so far, the
last one first, and the files it finds; or the reason for which the system refuses to start it. -/
def Git := List Git.Call → FileSystem → Git.Request → Except String (Git.Reply × FileSystem)

/-- The files behind a request. They are those that git finds if it is not started. -/
def Git.leave (git : Git) (calls : List Git.Call) (files : FileSystem) (request : Git.Request) :
    FileSystem :=
  match git calls files request with
  | .error _ => files
  | .ok (_, after) => after

end WorkingCopies
