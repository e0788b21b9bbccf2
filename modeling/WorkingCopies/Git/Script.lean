import WorkingCopies.FileSystem.Outline
import WorkingCopies.Git.Call

/-!
# Git by rules

A script stands for git by a list of rules. The first rule that fits a command gives the reply; it
may change files, may be used up, and may put further rules before the others. A command that no
rule fits fails and writes nothing.
-/

namespace WorkingCopies.Git

open FileSystem (Location)

namespace Script

/-- The commands that a rule fits. -/
structure Pattern where
  arguments : List String
  /-- Whether more arguments may follow. -/
  isInitial : Bool := false
  /-- The folder, as seen from the working folder. -/
  folder : Option String := none
  deriving Inhabited

/-- What a rule does. -/
structure Reaction where
  reply : Reply := {}
  changes : List (String × FileSystem.Change) := []
  deriving Inhabited

/-- A rule: what it fits, how often it may still be used, what it does, and the rules that come into
force with it. -/
inductive Rule where
  | mk (pattern : Pattern) (uses : Option Nat) (reaction : Reaction) (added : List Rule)
  deriving Inhabited

/-- Whether a pattern fits a command. -/
def Pattern.fits (pattern : Pattern) (folder : String) (arguments : List String) : Bool :=
  pattern.folder.all (· == folder) &&
    (if pattern.isInitial then pattern.arguments.isPrefixOf arguments
      else pattern.arguments == arguments)

/-- The first rule that fits a command: its reaction, the rules that come into force with it, and
the rules with one use of it less. -/
def useFirst (folder : String) (arguments : List String) :
    List Rule → Option (Reaction × List Rule × List Rule)
  | [] => none
  | .mk pattern uses reaction added :: rules =>
    if uses != some 0 && pattern.fits folder arguments then
      some (reaction, added, .mk pattern (uses.map (· - 1)) reaction added :: rules)
    else
      (useFirst folder arguments rules).map fun (found, new, rest) =>
        (found, new, .mk pattern uses reaction added :: rest)

/-- The reaction to a command, and the rules in force after it. -/
def react (folder : String) (arguments : List String) (rules : List Rule) : Reaction × List Rule :=
  match useFirst folder arguments rules with
  | some (reaction, added, rest) => (reaction, added ++ rest)
  | none => ({ reply := { status := 1 } }, rules)

/-- The rules in force after a call. -/
def rulesAfter (start : Location) (rules : List Rule) (call : Call) : List Rule :=
  match call.outcome with
  | .notStarted _ => rules
  | .finished folder _ => (react (FileSystem.relativeName start folder) call.arguments rules).2

/-- The git that follows some rules. -/
def git (rules : List Rule) : Git := fun calls files request =>
  let rules := calls.foldr (fun call rules => rulesAfter files.start rules call) rules
  let (reaction, _) :=
    react (FileSystem.relativeName files.start request.folder) request.arguments rules
  .ok (reaction.reply, files.applyChanges reaction.changes)

end Script

end WorkingCopies.Git
