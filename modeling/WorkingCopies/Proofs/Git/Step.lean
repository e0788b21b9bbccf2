import WorkingCopies.Proofs.Git.Attempt

/-!
# Steps

Work with git goes on step by step, and ends where a step fails. A step is told by the calls with
which it is taken and by those with which it fails: some commands have to succeed for it to be
taken, and what comes of the others does not matter.
-/

namespace WorkingCopies

open Git (Call Command)

variable {ε α β State : Type} {host : Host}

namespace Git

/-- Whether a call is one of a command in a folder, with some choice of arguments. -/
def Call.Asks (call : Call) (folder : Option Path) (choices : List (List String)) : Prop :=
  call.folder = folder ∧ call.arguments ∈ choices

/-- An attempt to run a command asks for it. -/
theorem asks_attempt (git : Git) (workspace : Workspace) (folder : Option Path)
    (arguments : List String) :
    (git.attempt workspace folder arguments).Asks folder [arguments] :=
  ⟨git.folder_attempt workspace _ _, List.mem_singleton.mpr (git.arguments_attempt workspace _ _)⟩

/-- A step of some work. -/
structure Step where
  /-- The calls with which it is taken. -/
  passes : List Call → Prop
  /-- The calls with which it fails. -/
  fails : List Call → Prop

namespace Step

variable {first second step : Step} {calls : List Call}

/-- The calls of a step that ends with a result. -/
def Ends (step : Step) (result : Except ε α) (calls : List Call) : Prop :=
  match result with
  | .ok _ => step.passes calls
  | .error _ => step.fails calls

/-- A call in a folder, which has to be as it is wanted. -/
def must (folder : Option Path) (choices : List (List String)) (wanted : Call → Prop) : Step where
  passes calls := ∃ call : Call, call.Asks folder choices ∧ wanted call ∧ calls = [call]
  fails calls := ∃ call : Call, call.Asks folder choices ∧ ¬ wanted call ∧ calls = [call]

/-- A command in a folder, which has to succeed. -/
def command (folder : Option Path) (arguments : List String) : Step :=
  must folder [arguments] (·.succeeded = true)

/-- Work on files, which makes no call. -/
def unseen : Step where
  passes calls := calls = []
  fails calls := calls = []

/-- Work on files that succeeds on a condition. -/
def holds (condition : Prop) : Step where
  passes calls := condition ∧ calls = []
  fails calls := ¬ condition ∧ calls = []

/-- No work at all. -/
def done : Step where
  passes calls := calls = []
  fails _ := False

/-- One step and then another one. -/
def andThen (first second : Step) : Step where
  passes calls := ∃ earlier later, first.passes earlier ∧ second.passes later ∧
    calls = earlier ++ later
  fails calls := first.fails calls ∨ ∃ earlier later, first.passes earlier ∧
    second.fails later ∧ calls = earlier ++ later

/-- Steps that are taken in turn. -/
def inTurn (steps : List Step) : Step := steps.foldr andThen done

/-- Doing nothing before a step is the step. -/
@[simp] theorem done_andThen (step : Step) : done.andThen step = step := by
  simp [andThen, done]

/-- Doing nothing behind a step is the step. -/
@[simp] theorem andThen_done (step : Step) : step.andThen done = step := by
  simp [andThen, done]

/-- Of three steps in turn it does not matter which two are taken together. -/
theorem andThen_assoc (first second third : Step) :
    (first.andThen second).andThen third = first.andThen (second.andThen third) := by
  have hsplit (last : List Call → Prop) (calls : List Call) :
      (∃ front later, (∃ earlier middle, first.passes earlier ∧ second.passes middle ∧
        front = earlier ++ middle) ∧ last later ∧ calls = front ++ later) ↔
      ∃ earlier back, first.passes earlier ∧ (∃ middle later, second.passes middle ∧
        last later ∧ back = middle ++ later) ∧ calls = earlier ++ back := by
    constructor
    · rintro ⟨_, later, ⟨earlier, middle, hfirst, hsecond, rfl⟩, hlast, rfl⟩
      exact ⟨earlier, _, hfirst, ⟨middle, later, hsecond, hlast, rfl⟩, List.append_assoc _ _ _⟩
    · rintro ⟨earlier, _, hfirst, ⟨middle, later, hsecond, hlast, rfl⟩, rfl⟩
      exact ⟨_, later, ⟨earlier, middle, hfirst, hsecond, rfl⟩, hlast,
        (List.append_assoc _ _ _).symm⟩
  unfold andThen
  congr 1
  · exact funext fun calls => propext (hsplit third.passes calls)
  · funext calls
    apply propext
    have hthird := hsplit third.fails calls
    constructor
    · rintro ((hfirst | ⟨earlier, later, hearlier, hlater, rfl⟩) | hlast)
      · exact .inl hfirst
      · exact .inr ⟨earlier, later, hearlier, .inl hlater, rfl⟩
      · obtain ⟨earlier, back, hearlier, hback, rfl⟩ := hthird.mp hlast
        exact .inr ⟨earlier, back, hearlier, .inr hback, rfl⟩
    · rintro (hfirst | ⟨earlier, back, hearlier, hback | hback, rfl⟩)
      · exact .inl (.inl hfirst)
      · exact .inl (.inr ⟨earlier, back, hearlier, hback, rfl⟩)
      · exact .inr (hthird.mpr ⟨earlier, back, hearlier, hback, rfl⟩)

/-- The steps of two lists in turn are those of one list. -/
theorem inTurn_append (steps more : List Step) :
    inTurn (steps ++ more) = (inTurn steps).andThen (inTurn more) := by
  induction steps with
  | nil => exact (done_andThen _).symm
  | cons step steps ih => exact (congrArg step.andThen ih).trans (andThen_assoc _ _ _).symm

/-- Whether every call that failed in a step that was taken is of some kind. -/
def Spares (step : Step) (spared : Call → Prop) : Prop :=
  ∀ calls, step.passes calls → ∀ call ∈ calls, call.succeeded = false → spared call

namespace Spares

variable {spared : Call → Prop}

/-- What is of some kind is of every wider one. -/
theorem mono {wider : Call → Prop} (h : step.Spares spared)
    (hwider : ∀ call, spared call → wider call) : step.Spares wider :=
  fun calls hpasses call hcall hfailed => hwider call (h calls hpasses call hcall hfailed)

/-- A call that has to be a success did not fail. -/
theorem must {folder : Option Path} {choices : List (List String)} {wanted : Call → Prop}
    (hwanted : ∀ call, wanted call → call.succeeded = true) :
    (must folder choices wanted).Spares spared := by
  rintro _ ⟨other, -, hother, rfl⟩ call hcall hfailed
  obtain rfl := List.mem_singleton.mp hcall
  rw [hwanted call hother] at hfailed
  cases hfailed

/-- Work on files fails no call. -/
theorem unseen : unseen.Spares spared := by
  rintro _ rfl call hcall
  cases hcall

/-- On a condition it fails none either. -/
theorem holds {condition : Prop} : (holds condition).Spares spared :=
  fun calls hpasses => unseen calls hpasses.2

/-- No work fails no call. -/
theorem done : done.Spares spared := unseen

/-- The calls of two steps in turn are those of both. -/
theorem andThen (hfirst : first.Spares spared) (hsecond : second.Spares spared) :
    (first.andThen second).Spares spared := by
  rintro _ ⟨earlier, later, hearlier, hlater, rfl⟩ call hcall
  rcases List.mem_append.mp hcall with hcall | hcall
  · exact hfirst earlier hearlier call hcall
  · exact hsecond later hlater call hcall

/-- The calls of steps in turn are those of all of them. -/
theorem inTurn {steps : List Step} (h : ∀ step ∈ steps, step.Spares spared) :
    (inTurn steps).Spares spared := by
  induction steps with
  | nil => exact done
  | cons step steps ih =>
    exact (h step List.mem_cons_self).andThen
      (ih fun other hother => h other (List.mem_cons_of_mem _ hother))

end Spares

end Step

end Git

open Git (Step)

/-- Where git is installed, running a command is one call that asks it, and gives what comes of it. -/
theorem ensures_run_asks {git : Git} {command : Command} {before : Workspace}
    (hgit : host.git = some git) :
    Ensures command.run host before fun result calls _ =>
      ∃ call : Call, call.Asks command.folder [command.arguments.map (·.text)] ∧
        calls = [call] ∧ result = command.conclude call.outcome := by
  refine (ensures_run_of_git hgit).mono fun result calls _ hrun => ?_
  obtain ⟨call, hruns, rfl, rfl⟩ := hrun
  exact ⟨call, ⟨hruns.folder, by rw [hruns.arguments]; exact List.mem_cons_self⟩, rfl, rfl⟩

/-- Where git is installed, running it in a folder is one call there. -/
theorem ensures_execute_asks {git : Git} {folder : Path} {arguments : List String}
    {before : Workspace} (hgit : host.git = some git) :
    Ensures (Git.execute folder arguments) host before fun result calls _ =>
      ∃ call : Call, call.Asks (some folder) [arguments] ∧ calls = [call] ∧
        result = (Command.plain arguments).conclude call.outcome := by
  have hrun : Ensures (Git.execute folder arguments) host before fun result calls _ => _ :=
    ensures_run_asks hgit
  rwa [Command.folder_within, Command.map_text_plain_within] at hrun

/-- Whether an action takes a step, wherever it is carried out: if it succeeds the step is taken, and
if it fails the step fails. -/
def Takes [KeepsCalls State] (host : Host) (step : Step) (action : Action State α) : Prop :=
  ∀ before, Ensures action host before fun result calls _ => step.Ends result calls

namespace Takes

variable [KeepsCalls State] {step other : Step} {action : Action State α}

/-- Behind an action that takes its step here comes the step of what follows. -/
theorem ensures_bind {before : State} {next : α → Action State β}
    (first : Ensures action host before fun result calls _ => step.Ends result calls)
    (rest : ∀ value, Takes host other (next value)) :
    Ensures (action >>= next) host before fun result calls _ =>
      (step.andThen other).Ends result calls := by
  refine Ensures.bind first ?_ fun _ _ _ hfails => .inl hfails
  intro value earlier between hpasses
  refine (rest value between).mono fun result later _ hends => ?_
  cases result with
  | ok value => exact ⟨earlier, later, hpasses, hends, rfl⟩
  | error failure => exact .inr ⟨earlier, later, hpasses, hends, rfl⟩

/-- Two actions in turn take their steps in turn. -/
theorem bind {next : α → Action State β} (first : Takes host step action)
    (rest : ∀ value, Takes host other (next value)) :
    Takes host (step.andThen other) (action >>= next) :=
  fun before => ensures_bind (first before) rest

/-- An action takes every step that allows more. -/
theorem mono (h : Takes host step action) (hpasses : ∀ calls, step.passes calls → other.passes calls)
    (hfails : ∀ calls, step.fails calls → other.fails calls) : Takes host other action := by
  refine fun before => (h before).mono fun result calls _ hends => ?_
  cases result with
  | ok value => exact hpasses calls hends
  | error failure => exact hfails calls hends

/-- A step that is the last one is all that is left. -/
theorem last (h : Takes host step action) : Takes host (.inTurn [step]) action := by
  rw [Step.inTurn, List.foldr_cons, List.foldr_nil, step.andThen_done]
  exact h

/-- A command with some arguments is one with a choice of them. -/
theorem choose {folder : Option Path} {choices more : List (List String)} {wanted : Call → Prop}
    (h : Takes host (.must folder choices wanted) action) (hmore : choices ⊆ more) :
    Takes host (.must folder more wanted) action := by
  refine h.mono ?_ ?_ <;> rintro _ ⟨call, ⟨hfolder, harguments⟩, hcall, rfl⟩ <;>
    exact ⟨call, ⟨hfolder, hmore harguments⟩, hcall, rfl⟩

/-- What follows an action that succeeds and makes no call takes its own step. -/
theorem behind {next : α → Action State β} (first : Takes host .done action)
    (rest : ∀ value, Takes host step (next value)) : Takes host step (action >>= next) := by
  rw [← step.done_andThen]
  exact first.bind rest

/-- Giving a value takes no step. -/
theorem pure {value : α} : Takes host .done (Pure.pure value : Action State α) :=
  fun _ => Ensures.pure rfl

/-- Changing the value changes no step. -/
theorem map {change : α → β} (h : Takes host step action) :
    Takes host step (change <$> action) := by
  rw [map_eq_pure_bind, ← step.andThen_done]
  exact h.bind fun _ => pure

/-- Forgetting the value changes no step. -/
theorem discard (h : Takes host step action) : Takes host step (Functor.discard action) := h.map

section Operations

variable {git : Git} {command : Command} {folder : Path} {arguments : List String}

/-- A report takes no step. -/
theorem report {level : Log.Level} {topic : Log.Topic} {text : String} :
    Takes host .done (Operation.report level topic text) :=
  fun _ => Ensures.report rfl

/-- An edit is work on files. -/
theorem edit {change : FileSystem.Edit α} : Takes host .unseen (Operation.edit change) := by
  intro before
  refine Ensures.edit ?_
  cases (change.run.run before.files).1 <;> exact rfl

/-- Where git is installed, a command that is run has to succeed. -/
theorem run (hgit : host.git = some git) :
    Takes host (.command command.folder (command.arguments.map (·.text))) command.run := by
  refine fun before => (ensures_run_asks hgit).mono fun result calls _ hrun => ?_
  obtain ⟨call, hasks, rfl, rfl⟩ := hrun
  rcases command.conclude_cases call with ⟨hsucceeded, output, houtput⟩ |
    ⟨hfailed, failure, hfailure⟩
  · rw [houtput]
    exact ⟨call, hasks, hsucceeded, rfl⟩
  · rw [hfailure]
    exact ⟨call, hasks, by simp [hfailed], rfl⟩

/-- Where git is installed, running it in a folder has to succeed. -/
theorem execute (hgit : host.git = some git) :
    Takes host (.command (some folder) arguments) (Git.execute folder arguments) := by
  have hrun : Takes host _ (Git.execute folder arguments) := run hgit
  rwa [Command.folder_within, Command.map_text_plain_within] at hrun

/-- An operation takes as a task the step that it takes by itself. -/
theorem ofOperation {operation : Operation α} (h : Takes host step operation) :
    Takes host step (Task.ofOperation operation) :=
  fun before => Ensures.ofOperation (h before.2)

end Operations

end Takes

end WorkingCopies
