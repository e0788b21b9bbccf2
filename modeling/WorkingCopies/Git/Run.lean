import WorkingCopies.Git.Command
import WorkingCopies.Operation
import WorkingCopies.Text.Blank

/-!
# Running git

A command is logged and started in its folder. A failure shows the command line and what git wrote,
first its errors and then its output, with the secrets of the command hidden in both.
-/

namespace WorkingCopies.Git

/-- The folder to start in, unless something stands against it. A character NUL in an argument or in
the name of the folder counts before anything about the folder itself. -/
def startingFolder (files : FileSystem) (folder : Option Path) (arguments : List String) :
    Except FileSystem.Fault FileSystem.Location :=
  let texts := (folder.map (·.text)).toList ++ arguments
  if texts.any fun text => text.toList.contains '\x00' then .error .nulInArgument
  else files.folderAt (folder.getD ⟨"."⟩)

/-- What comes of an attempt to start git, and the files behind it. Nothing changes where git is not
started. -/
def comesTo (git : Git) (workspace : Workspace) (folder : Option Path) (arguments : List String) :
    Outcome × FileSystem :=
  match startingFolder workspace.files folder arguments with
  | .error fault => (.notStarted fault, workspace.files)
  | .ok location =>
    match git workspace.calls workspace.files ⟨location, arguments⟩ with
    | .error reason => (.notStarted (.other reason), workspace.files)
    | .ok (reply, after) => (.finished location reply, after)

/-- The call that an attempt to start git is. -/
def attempt (git : Git) (workspace : Workspace) (folder : Option Path) (arguments : List String) :
    Call :=
  let (outcome, after) := git.comesTo workspace folder arguments
  { folder, arguments, outcome, before := workspace.files, after }

/-- Start git, and remember the attempt. -/
def start (git : Git) (folder : Option Path) (arguments : List String) : Operation Outcome := do
  let workspace ← get
  let call := git.attempt workspace folder arguments
  set { workspace with files := call.after, calls := call :: workspace.calls }
  return call.outcome

/-- What git wrote, errors first, without white space at the ends of either part. -/
def Reply.written (reply : Reply) : String :=
  let parts := [reply.errorOutput, reply.output].map fun bytes => Text.trim (Text.decodeLossy bytes)
  "\n".intercalate (parts.filter fun part => !part.isEmpty)

namespace Command

/-- The text that is logged for a command. -/
def logText (command : Command) : String :=
  match command.folder with
  | some folder => "[" ++ folder.text ++ "] " ++ command.display
  | none => command.display

/-- What comes of an attempt to run a command. -/
def conclude (command : Command) : Outcome → Except Failure Bytes
  | .notStarted fault => .error (.commandFailed command.display (command.mask fault.message))
  | .finished _ reply =>
    if reply.status = 0 then .ok reply.output
    else .error (.commandFailed command.display (command.mask reply.written))

/-- Run a command and give what it wrote. -/
def run (command : Command) : Operation Bytes := do
  match (← read).git with
  | none => throw (.toolMissing "git")
  | some git =>
    Operation.report .debug .git command.logText
    let outcome ← start git command.folder (command.arguments.map (·.text))
    Operation.ofExcept (command.conclude outcome)

/-- Run a command and give what it wrote as a text without white space at its ends. -/
def runText (command : Command) : Operation String := do
  return Text.trim (Text.decodeLossy (← command.run))

end Command

/-- Run git in a folder. -/
def execute (folder : Path) (arguments : List String) : Operation Bytes :=
  ((Command.plain arguments).within folder).run

/-- Run git in a folder and give what it wrote as a text without white space at its ends. -/
def executeText (folder : Path) (arguments : List String) : Operation String :=
  ((Command.plain arguments).within folder).runText

/-- Whether git succeeds in a folder. -/
def succeeds (folder : Path) (arguments : List String) : Operation Bool := do
  return (← (execute folder arguments).attempt).toOption.isSome

end WorkingCopies.Git
