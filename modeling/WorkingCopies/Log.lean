/-!
# The log

What the program reports while it works, oldest entry first. An entry says how important it is and
which part of the program wrote it; which entries are shown is decided where they are printed.
-/

namespace WorkingCopies.Log

/-- How important an entry is. -/
inductive Level where
  | error
  | warning
  | info
  | debug
  | trace
  deriving Repr, DecidableEq, Inhabited

/-- The name of a level. -/
def Level.name : Level → String
  | error => "ERROR"
  | warning => "WARN"
  | info => "INFO"
  | debug => "DEBUG"
  | trace => "TRACE"

/-- The part of the program that an entry comes from. -/
inductive Topic where
  | git
  | checkout
  | origin
  | workingCopy
  | hosted
  | localFolder
  | remote
  | configuration
  deriving Repr, DecidableEq, Inhabited

/-- The name of a topic, under which its entries can be selected. -/
def Topic.name : Topic → String
  | git => "reposync::git"
  | checkout => "reposync::checkout"
  | origin => "reposync::origin"
  | workingCopy => "reposync::downloader"
  | hosted => "reposync::downloader::github"
  | localFolder => "reposync::downloader::local"
  | remote => "reposync::downloader::remote"
  | configuration => "reposync::config"

/-- One report. -/
structure Entry where
  level : Level
  topic : Topic
  text : String
  deriving Repr, DecidableEq, Inhabited

end WorkingCopies.Log
