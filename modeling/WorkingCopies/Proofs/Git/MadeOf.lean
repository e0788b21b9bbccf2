import WorkingCopies.Proofs.Git.Attempt

/-!
# Operations made of commands

Most operations run commands, report what they do and decide by the results, and nothing else. What
is true of the commands that such an operation may run, and of two operations in turn if it is true
of both, is true of the operation: one induction shows it for all of them.
-/

namespace WorkingCopies

open Git (Call Command)

/-- An operation that is made of commands of some kind. -/
inductive MadeOf (allowed : Command → Prop) : {α : Type} → Operation α → Prop where
  | pure {α : Type} (value : α) : MadeOf allowed (Pure.pure value)
  | throw {α : Type} (failure : Failure) : MadeOf allowed (MonadExcept.throw failure : Operation α)
  | bind {α β : Type} {operation : Operation α} {next : α → Operation β}
      (first : MadeOf allowed operation) (rest : ∀ value, MadeOf allowed (next value)) :
      MadeOf allowed (operation >>= next)
  | attempt {α : Type} {operation : Operation α} (h : MadeOf allowed operation) :
      MadeOf allowed operation.attempt
  | report (level : Log.Level) (topic : Log.Topic) (text : String) :
      MadeOf allowed (Operation.report level topic text)
  | environment : MadeOf allowed Operation.environment
  | run {command : Command} (h : allowed command) : MadeOf allowed command.run

/-- Whether a command is run in a folder and starts with one of some words. -/
def Git.Command.Names (command : Command) (folder : Path) (names : List String) : Prop :=
  command.folder = some folder ∧
    ∃ name ∈ names, (command.arguments.map (·.text)).head? = some name

/-- An attempt to run such a command names one of the words. -/
theorem Git.Call.Runs.names {call : Call} {command : Command} {folder : Path} {names : List String}
    (h : call.Runs command) (hcommand : command.Names folder names) : call.Names folder names := by
  obtain ⟨hfolder, name, hname, hhead⟩ := hcommand
  exact ⟨h.folder.trans hfolder, name, hname, by rw [h.arguments, hhead]⟩

namespace MadeOf

variable {allowed weaker : Command → Prop} {α β : Type} {operation : Operation α}

/-- Commands of one kind are commands of a wider one. -/
theorem mono (h : MadeOf allowed operation)
    (hweaker : ∀ command, allowed command → weaker command) : MadeOf weaker operation := by
  induction h with
  | pure value => exact .pure value
  | throw failure => exact .throw failure
  | bind _ _ first rest => exact .bind first rest
  | attempt _ ih => exact .attempt ih
  | report level topic text => exact .report level topic text
  | environment => exact .environment
  | run hcommand => exact .run (hweaker _ hcommand)

/-- Changing the value of a result runs nothing. -/
theorem map {change : α → β} (h : MadeOf allowed operation) : MadeOf allowed (change <$> operation) := by
  rw [map_eq_pure_bind]
  exact .bind h fun _ => .pure _

/-- Forgetting the value of a result runs nothing. -/
theorem discard (h : MadeOf allowed operation) : MadeOf allowed (Functor.discard operation) :=
  .map h

/-- A choice between two operations is made of the commands of both. -/
theorem ite {condition : Prop} [Decidable condition] {other : Operation α}
    (h : condition → MadeOf allowed operation) (hother : ¬ condition → MadeOf allowed other) :
    MadeOf allowed (if condition then operation else other) := by
  split
  · exact h ‹_›
  · exact hother ‹_›

/-- Giving a result that is there already runs nothing. -/
theorem ofExcept {result : Except Failure α} : MadeOf allowed (Operation.ofExcept result) := by
  cases result with
  | ok value => exact .pure value
  | error failure => exact .throw failure

section Words

variable {folder : Path} {name : String} {names more arguments : List String}

/-- Commands that name some words name some of more words. -/
theorem widen (h : MadeOf (fun command => command.Names folder names) operation)
    (hmore : names ⊆ more) : MadeOf (fun command => command.Names folder more) operation := by
  refine h.mono fun command hnames => ?_
  obtain ⟨hfolder, name, hname, hhead⟩ := hnames
  exact ⟨hfolder, name, hmore hname, hhead⟩

/-- Running git in a folder is one command there. -/
theorem execute (hname : name ∈ names) :
    MadeOf (fun command => command.Names folder names) (Git.execute folder (name :: arguments)) :=
  .run ⟨Command.folder_within _ _, name, hname, by simp⟩

/-- Reading what git writes as a text is the same command. -/
theorem executeText (hname : name ∈ names) :
    MadeOf (fun command => command.Names folder names)
      (Git.executeText folder (name :: arguments)) :=
  .bind (execute hname) fun _ => .pure _

/-- Asking whether git succeeds is the same command. -/
theorem succeeds (hname : name ∈ names) :
    MadeOf (fun command => command.Names folder names) (Git.succeeds folder (name :: arguments)) :=
  .bind (.attempt (execute hname)) fun _ => .pure _

end Words

/-- The calls that such an operation makes are attempts to run its commands. -/
theorem makes (h : MadeOf allowed operation) :
    Makes operation fun call => ∃ command, allowed command ∧ call.Runs command := by
  induction h with
  | pure value => exact Makes.pure
  | throw failure => exact Makes.throw
  | bind _ _ first rest => exact Makes.bind first rest
  | attempt _ ih => exact Makes.attempt ih
  | report level topic text => exact Makes.report
  | environment => exact Makes.silent fun _ _ => rfl
  | run hcommand => exact Makes.run fun _ hruns => ⟨_, hcommand, hruns⟩

/-- The calls of an operation that is made of commands with some words name these words. -/
theorem makes_names {folder : Path} {names : List String}
    (h : MadeOf (fun command => command.Names folder names) operation) :
    Makes operation fun call => call.Names folder names := by
  refine h.makes.mono fun call hcall => ?_
  obtain ⟨command, hcommand, hruns⟩ := hcall
  exact hruns.names hcommand

end MadeOf

end WorkingCopies
