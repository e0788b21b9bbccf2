import WorkingCopies.Log.Filter
import WorkingCopies.Path

/-!
# What a command line asks for

A command line names one command with what it works on, and options that every command has.
-/

namespace WorkingCopies.CommandLine

/-- Options that every command has. -/
structure Options where
  manifest : Path
  /-- The settings; without them, those of the user. -/
  settings : Option Path
  /-- Whether the output is coloured, as the user put it. -/
  colour : String
  logLevel : Log.Threshold
  /-- Report warnings and errors only. -/
  isQuiet : Bool
  /-- Report every git command. -/
  isVerbose : Bool

/-- Up to which level the log is shown. -/
def Options.threshold (options : Options) : Log.Threshold :=
  if options.isVerbose then some .debug
  else if options.isQuiet then some .warning
  else options.logLevel

/-- A declared repository, and its working copy if it is not in the usual place. -/
structure Target where
  repository : String
  workingCopy : Option Path

/-- A command and what it works on. -/
inductive Command where
  /-- Make a working copy. -/
  | download (target : Target) (reference : String)
  /-- Bring a working copy up to date. -/
  | update (target : Target) (reference : String)
  /-- Write one file of a repository into a folder. -/
  | fetchFile (target : Target) (file reference : String) (folder : Path)
  /-- Print the hash of a reference. -/
  | hash (target : Target) (reference : String)
  /-- Print all names of a commit. -/
  | names (target : Target) (reference : String) (asJson : Bool)
  /-- Print what a reference names. -/
  | kind (target : Target) (reference : String)
  /-- Print whether a working copy has changes. -/
  | status (target : Target)
  /-- Set the origin of a working copy right. -/
  | repairOrigin (target : Target)
  /-- Print the declared repositories. -/
  | list (usedOnly : Bool)

/-- A command with its options. -/
structure Request where
  options : Options
  command : Command

/-- Why a command line leads to no command. -/
inductive Refusal where
  /-- It is not understood. -/
  | usage (problem : String)
  /-- It asks for the version of the program. -/
  | version

end WorkingCopies.CommandLine
