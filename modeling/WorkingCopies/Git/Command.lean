import WorkingCopies.Masking
import WorkingCopies.Path

/-!
# Git commands

A command is a list of arguments and the folder it runs in. An argument that carries a secret has
a second form that is shown in its place, in the command line that is logged and in whatever git
writes.
-/

namespace WorkingCopies.Git

/-- An argument and the form in which it is shown. -/
structure Argument where
  text : String
  shown : String := text
  deriving Repr, DecidableEq, Inhabited

/-- A git command before it runs. -/
structure Command where
  arguments : List Argument
  /-- The folder to run in; without it, the folder that the program itself works in. -/
  folder : Option Path := none
  deriving Repr, DecidableEq, Inhabited

namespace Command

/-- A command without secrets. -/
def plain (arguments : List String) : Command := { arguments := arguments.map ({ text := · }) }

/-- The same command in a folder. -/
def within (command : Command) (folder : Path) : Command := { command with folder := some folder }

/-- The command line as it is shown. -/
def display (command : Command) : String :=
  command.arguments.foldl (fun line argument => line ++ " " ++ argument.shown) "git"

/-- What has to be hidden in the output of the command. -/
def masks (command : Command) : List Mask :=
  command.arguments.filterMap fun argument =>
    if argument.text ≠ "" ∧ argument.text ≠ argument.shown then some ⟨argument.text, argument.shown⟩
    else none

/-- A text with the secrets of the command hidden. -/
def mask (command : Command) (text : String) : String := Mask.hideAll command.masks text

end Command

end WorkingCopies.Git
