import WorkingCopies.Proofs.Ensures
import WorkingCopies.Proofs.FileSystem.Resolve

/-!
# Attempts to run git

Running a command makes one call, or none where git is not installed, and its result is read off
the outcome of that call. Most statements about a longer operation need no more of a call than the
folder and the arguments it has; `Git.Call.Runs` says that these are those of a command, and that
git was kept from starting for no other reason than it can be: a fault that the program finds, or one
that the system tells in words. `Makes` says of an operation that all its calls are of some form,
whatever its result.
-/

namespace WorkingCopies

/-- What git can go by: the calls so far, the last one first, and the files. -/
abbrev Git.View := List Git.Call × FileSystem

/-- What git can go by behind one more call. -/
def Git.View.behind (view : Git.View) (call : Git.Call) : Git.View := (call :: view.1, call.after)

/-- What git can go by in a workspace. -/
def Workspace.view (workspace : Workspace) : Git.View := (workspace.calls, workspace.files)

namespace Git

/-- The folder of an attempt is the one that it was made in. -/
theorem folder_attempt (git : Git) (workspace : Workspace) (folder : Option Path)
    (arguments : List String) : (git.attempt workspace folder arguments).folder = folder := rfl

/-- The arguments of an attempt are those that it was made with. -/
theorem arguments_attempt (git : Git) (workspace : Workspace) (folder : Option Path)
    (arguments : List String) :
    (git.attempt workspace folder arguments).arguments = arguments := rfl

/-- An attempt starts from the files that it finds. -/
theorem before_attempt (git : Git) (workspace : Workspace) (folder : Option Path)
    (arguments : List String) :
    (git.attempt workspace folder arguments).before = workspace.files := rfl

/-- An attempt depends on nothing but what git can go by. -/
theorem attempt_eq_of_view {git : Git} {first second : Workspace}
    (h : first.view = second.view) (folder : Option Path) (arguments : List String) :
    git.attempt first folder arguments = git.attempt second folder arguments := by
  obtain ⟨hcalls, hfiles⟩ : first.calls = second.calls ∧ first.files = second.files :=
    Prod.mk.inj h
  simp only [attempt, comesTo, hcalls, hfiles]

/-- The faults that keep the program from asking for git to be started. -/
def startFaults : List FileSystem.Fault := .nulInArgument :: FileSystem.folderFaults

/-- Where there is no folder to start git in, one of these faults is the reason. -/
theorem mem_startFaults {files : FileSystem} {folder : Option Path} {arguments : List String}
    {fault : FileSystem.Fault} (h : startingFolder files folder arguments = .error fault) :
    fault ∈ startFaults := by
  unfold startingFolder at h
  dsimp only at h
  split at h
  · cases h
    decide
  · exact List.mem_cons_of_mem _ (FileSystem.mem_folderFaults_of_folderAt h)

/-- What an attempt comes to: the program does not ask for git to be started, the system refuses to
start it, or it replies. -/
theorem comesTo_cases (git : Git) (workspace : Workspace) (folder : Option Path)
    (arguments : List String) :
    (∃ fault ∈ startFaults,
        git.comesTo workspace folder arguments = (.notStarted fault, workspace.files)) ∨
      (∃ reason, git.comesTo workspace folder arguments =
        (.notStarted (.other reason), workspace.files)) ∨
      ∃ location reply after, startingFolder workspace.files folder arguments = .ok location ∧
        git workspace.calls workspace.files ⟨location, arguments⟩ = .ok (reply, after) ∧
        git.comesTo workspace folder arguments = (.finished location reply, after) := by
  unfold comesTo
  cases hstart : startingFolder workspace.files folder arguments with
  | error fault => exact .inl ⟨fault, mem_startFaults hstart, rfl⟩
  | ok location =>
    cases hreply : git workspace.calls workspace.files ⟨location, arguments⟩ with
    | error reason => exact .inr (.inl ⟨reason, by simp only [hreply]⟩)
    | ok replied =>
      obtain ⟨reply, after⟩ := replied
      exact .inr (.inr ⟨location, reply, after, rfl, hreply, by simp only [hreply]⟩)

/-- An attempt leaves the files as they were, or as git leaves them. -/
theorem after_attempt (git : Git) (workspace : Workspace) (folder : Option Path)
    (arguments : List String) :
    (git.attempt workspace folder arguments).after = workspace.files ∨
      ∃ location, (git.attempt workspace folder arguments).after =
        git.leave workspace.calls workspace.files ⟨location, arguments⟩ := by
  rcases git.comesTo_cases workspace folder arguments with
    ⟨fault, -, hcome⟩ | ⟨reason, hcome⟩ | ⟨location, reply, after, -, hreply, hcome⟩
  · exact .inl (by simp [attempt, hcome])
  · exact .inl (by simp [attempt, hcome])
  · exact .inr ⟨location, by simp [attempt, hcome, leave, hreply]⟩

/-- Where an attempt has come to a reply, it is that of git, and the files are those that git left. -/
theorem of_outcome_attempt_eq_finished {git : Git} {workspace : Workspace} {folder : Option Path}
    {arguments : List String} {location : FileSystem.Location} {reply : Reply}
    (h : (git.attempt workspace folder arguments).outcome = .finished location reply) :
    git workspace.calls workspace.files ⟨location, arguments⟩ =
      .ok (reply, (git.attempt workspace folder arguments).after) := by
  rcases git.comesTo_cases workspace folder arguments with
    ⟨fault, -, hcome⟩ | ⟨reason, hcome⟩ | ⟨place, replied, after, -, hreply, hcome⟩
  · simp [attempt, hcome] at h
  · simp [attempt, hcome] at h
  · simp only [attempt, hcome] at h ⊢
    cases h
    exact hreply

/-- Git can be started in a folder that is there, unless a text has the character NUL. -/
theorem startingFolder_of_isFolder {files : FileSystem} {folder : Path} {arguments : List String}
    (hfolder : files.isFolder folder = true)
    (hnul : ∀ text ∈ folder.text :: arguments, '\x00' ∉ text.toList) :
    ∃ location, startingFolder files (some folder) arguments = .ok location := by
  have htexts : ((folder.text :: arguments).any fun text => text.toList.contains '\x00') =
      false := by
    simpa using hnul
  unfold startingFolder
  simp only [Option.map_some, Option.toList_some, List.singleton_append, htexts, Option.getD_some]
  unfold FileSystem.isFolder at hfolder
  cases hat : files.folderAt folder with
  | ok location => exact ⟨location, rfl⟩
  | error fault =>
    rw [hat] at hfolder
    cases hfolder

/-- Git is started only in a folder that is there, and only where no text has the character NUL. -/
theorem of_startingFolder_eq_ok {files : FileSystem} {folder : Path} {arguments : List String}
    {location : FileSystem.Location}
    (h : startingFolder files (some folder) arguments = .ok location) :
    files.isFolder folder = true ∧ ∀ text ∈ folder.text :: arguments, '\x00' ∉ text.toList := by
  unfold startingFolder at h
  dsimp only at h
  split at h
  · cases h
  · next hnul =>
    have hfolder : files.folderAt folder = .ok location := h
    refine ⟨by rw [FileSystem.isFolder, hfolder]; rfl, ?_⟩
    simpa using hnul

/-- A call that succeeded was started. -/
theorem startingFolder_of_succeeded {git : Git} {workspace : Workspace} {folder : Option Path}
    {arguments : List String} (h : (git.attempt workspace folder arguments).succeeded = true) :
    ∃ location, startingFolder workspace.files folder arguments = .ok location := by
  rcases git.comesTo_cases workspace folder arguments with
    ⟨fault, -, hcome⟩ | ⟨reason, hcome⟩ | ⟨location, reply, after, hstart, -, -⟩
  · simp [attempt, hcome, Call.succeeded] at h
  · simp [attempt, hcome, Call.succeeded] at h
  · exact ⟨location, hstart⟩

namespace Call

/-- A call that is an attempt to run a command. -/
structure Runs (call : Call) (command : Command) : Prop where
  folder : call.folder = command.folder
  arguments : call.arguments = command.arguments.map (·.text)
  fault : ∀ fault, call.outcome = .notStarted fault →
    fault ∈ startFaults ∨ ∃ reason, fault = .other reason

/-- Whether a call is made in a folder and names one of some commands of git. -/
def Names (call : Call) (folder : Path) (names : List String) : Prop :=
  call.folder = some folder ∧ ∃ name ∈ names, call.arguments.head? = some name

/-- A call that names one of some commands names no other one. -/
theorem Names.head_ne {call : Call} {folder : Path} {names : List String} {name : String}
    (h : call.Names folder names) (hname : name ∉ names) : call.arguments.head? ≠ some name := by
  obtain ⟨-, other, hother, hhead⟩ := h
  rw [hhead]
  intro hsame
  cases hsame
  exact hname hother

/-- A call that does not start with a word does not have arguments that do. -/
theorem arguments_ne_of_head {call : Call} {arguments : List String} {name : String}
    (h : call.arguments.head? ≠ some name) (harguments : arguments.head? = some name) :
    call.arguments ≠ arguments := by
  intro hsame
  subst hsame
  exact h harguments

/-- The first call with some arguments, in a list where no other one has them. -/
theorem split_unique {arguments : List String} {first call : Call}
    {tail earlier later : List Call} (h : first :: tail = earlier ++ call :: later)
    (hcall : call.arguments = arguments)
    (htail : ∀ other ∈ tail, other.arguments ≠ arguments) :
    earlier = [] ∧ first = call ∧ tail = later := by
  cases earlier with
  | nil => simpa using h
  | cons other earlier =>
    obtain ⟨-, rfl⟩ := List.cons.inj h
    exact absurd hcall (htail call (by simp))

end Call

namespace Command

/-- The call that git makes of a command in a workspace. -/
def callBy (command : Command) (git : Git) (workspace : Workspace) : Call :=
  git.attempt workspace command.folder (command.arguments.map (·.text))

/-- The call that git makes of a command is an attempt to run it. -/
theorem callBy_runs (command : Command) (git : Git) (workspace : Workspace) :
    (command.callBy git workspace).Runs command := by
  refine ⟨rfl, rfl, fun fault houtcome => ?_⟩
  have houtcome : (git.comesTo workspace command.folder (command.arguments.map (·.text))).1 =
      .notStarted fault := houtcome
  rcases git.comesTo_cases workspace command.folder (command.arguments.map (·.text)) with
    ⟨other, hother, hcome⟩ | ⟨reason, hcome⟩ | ⟨location, reply, after, -, -, hcome⟩
  all_goals
    rw [hcome] at houtcome
    cases houtcome
  · exact .inl hother
  · exact .inr ⟨reason, rfl⟩

/-- The workspace behind a call that was made for a command. -/
def leave (command : Command) (before : Workspace) (call : Call) : Workspace where
  files := call.after
  calls := call :: before.calls
  log := ⟨.debug, .git, command.logText⟩ :: before.log

/-- A command gives what its call wrote if the call succeeded, and fails if it did not. -/
theorem conclude_cases (command : Command) (call : Call) :
    (call.succeeded = true ∧ ∃ output, command.conclude call.outcome = .ok output) ∨
      (call.succeeded = false ∧ ∃ failure, command.conclude call.outcome = .error failure) := by
  unfold Call.succeeded conclude
  cases call.outcome with
  | notStarted fault => exact .inr ⟨rfl, _, rfl⟩
  | finished folder reply => by_cases hstatus : reply.status = 0 <;> simp [hstatus]

/-- What a command gives is what its call wrote. -/
theorem of_conclude_eq_ok {command : Command} {call : Call} {output : Bytes}
    (h : command.conclude call.outcome = .ok output) :
    ∃ folder reply, call.outcome = .finished folder reply ∧ reply.status = 0 ∧
      reply.output = output := by
  unfold conclude at h
  split at h
  · cases h
  · next folder reply hfinished =>
    split at h
    · next hstatus =>
      cases h
      exact ⟨folder, reply, hfinished, hstatus, rfl⟩
    · cases h

/-- A command gives something exactly if its call succeeded. -/
theorem isSome_toOption_conclude (command : Command) (call : Call) :
    (command.conclude call.outcome).toOption.isSome = call.succeeded := by
  rcases command.conclude_cases call with ⟨hsucceeded, _, houtput⟩ | ⟨hfailed, _, hfailure⟩
  · rw [houtput, hsucceeded]
    rfl
  · rw [hfailure, hfailed]
    rfl

/-- A call that was no success is a failure of its command. -/
theorem exists_failure {command : Command} {call : Call} (hfailed : call.succeeded = false) :
    ∃ failure, command.conclude call.outcome = .error failure := by
  rcases command.conclude_cases call with ⟨hsucceeded, -⟩ | ⟨-, hfailure⟩
  · rw [hfailed] at hsucceeded
    cases hsucceeded
  · exact hfailure

/-- The folder of a command has no part in what comes of it. -/
@[simp] theorem conclude_within (command : Command) (folder : Path) (outcome : Outcome) :
    (command.within folder).conclude outcome = command.conclude outcome := rfl

/-- A call of which something is made was a success. -/
theorem succeeded_of_map_conclude {α : Type} {command : Command} {call : Call} {value : α}
    {change : Bytes → α} (h : (command.conclude call.outcome).map change = .ok value) :
    call.succeeded = true := by
  rcases command.conclude_cases call with ⟨hsucceeded, -⟩ | ⟨-, failure, hfailure⟩
  · exact hsucceeded
  · rw [hfailure] at h
    cases h

/-- A failure that comes of a call is the failure of that call. -/
theorem failed_of_map_conclude {α : Type} {command : Command} {call : Call} {failure : Failure}
    {change : Bytes → α} (h : (command.conclude call.outcome).map change = .error failure) :
    call.succeeded = false ∧ command.conclude call.outcome = .error failure := by
  rcases command.conclude_cases call with ⟨-, output, houtput⟩ | ⟨hfailed, cause, hcause⟩
  · rw [houtput] at h
    cases h
  · rw [hcause] at h ⊢
    exact ⟨hfailed, congrArg Except.error (Except.error.inj h)⟩

/-- The texts of a plain command are its arguments. -/
@[simp] theorem map_text_plain_within (arguments : List String) (folder : Path) :
    ((plain arguments).within folder).arguments.map (·.text) = arguments := by
  simp [plain, within, Function.comp_def]

/-- A command in a folder is in that folder. -/
@[simp] theorem folder_within (command : Command) (folder : Path) :
    (command.within folder).folder = some folder := rfl

end Command

end Git

open Git

/-- Starting git adds the call that the attempt is, and leaves the files that the call leaves. -/
theorem outcome_start (git : Git) (folder : Option Path) (arguments : List String) (host : Host)
    (before : Workspace) :
    Action.outcome (start git folder arguments) host before =
      (.ok (git.attempt before folder arguments).outcome,
        { before with
          files := (git.attempt before folder arguments).after
          calls := git.attempt before folder arguments :: before.calls }) := by
  unfold start
  rw [outcome_bind]
  rfl

/-- Without git no command runs; with it a command is one call, and its result is read off that
call. -/
theorem outcome_run (command : Command) (host : Host) (before : Workspace) :
    Action.outcome command.run host before =
      match host.git with
      | none => (.error (.toolMissing "git"), before)
      | some git =>
        (command.conclude (command.callBy git before).outcome,
          command.leave before (command.callBy git before)) := by
  unfold Command.run
  rw [outcome_bind]
  show Action.outcome _ host before = _
  cases host.git with
  | none => rfl
  | some git =>
    dsimp only
    rw [outcome_bind]
    show Action.outcome _ host _ = _
    rw [outcome_bind, outcome_start]
    exact Operation.carryOut_ofExcept host _ _

variable {α β State : Type} {host : Host} {before : Workspace}

/-- Running a command fails where git is not installed. -/
theorem fails_run (hgit : host.git = none) (command : Command) :
    Action.Fails command.run host := by
  intro before
  rw [outcome_run, hgit]
  exact ⟨_, rfl⟩

/-- What holds without git, and of every call that git may make of a command, is ensured by running
the command. -/
theorem ensures_run {command : Command} {post : Except Failure Bytes → List Call → Workspace → Prop}
    (hmissing : host.git = none → post (.error (.toolMissing "git")) [] before)
    (hcall : ∀ git, host.git = some git → ∀ call, call = command.callBy git before →
      post (command.conclude call.outcome) [call] (command.leave before call)) :
    Ensures command.run host before post := by
  unfold Ensures
  rw [outcome_run]
  cases hgit : host.git with
  | none => exact ⟨[], rfl, hmissing hgit⟩
  | some git => exact ⟨[_], rfl, hcall git hgit _ rfl⟩

/-- Where git is installed, running a command makes one call of it. -/
theorem ensures_run_of_git {command : Command} {git : Git} (hgit : host.git = some git) :
    Ensures command.run host before fun result calls _ =>
      ∃ call : Call, call.Runs command ∧ calls = [call] ∧
        result = command.conclude call.outcome := by
  refine ensures_run (by simp [hgit]) ?_
  intro git _ call hcall
  subst hcall
  exact ⟨_, command.callBy_runs git before, rfl, rfl⟩

/-- Where git is installed, running it in a folder is one call, which the result is read off. -/
theorem ensures_execute {folder : Path} {arguments : List String} {git : Git}
    {post : Except Failure Bytes → List Call → Workspace → Prop} (hgit : host.git = some git)
    (h : ∀ after : Workspace,
      after.view = before.view.behind (git.attempt before (some folder) arguments) →
        post ((Command.plain arguments).conclude
          (git.attempt before (some folder) arguments).outcome)
          [git.attempt before (some folder) arguments] after) :
    Ensures (execute folder arguments) host before post := by
  have hcall : ((Command.plain arguments).within folder).callBy git before =
      git.attempt before (some folder) arguments := by
    simp [Command.callBy]
  refine ensures_run (by simp [hgit]) ?_
  intro other hother call hmade
  subst hmade
  obtain rfl : git = other := Option.some.inj (hgit.symm.trans hother)
  rw [hcall]
  exact h _ rfl

/-- Where git is installed, asking whether it succeeds is one call, which the answer is read off. -/
theorem ensures_succeeds {folder : Path} {arguments : List String} {git : Git}
    {post : Except Failure Bool → List Call → Workspace → Prop} (hgit : host.git = some git)
    (h : ∀ after : Workspace,
      after.view = before.view.behind (git.attempt before (some folder) arguments) →
        post (.ok (git.attempt before (some folder) arguments).succeeded)
          [git.attempt before (some folder) arguments] after) :
    Ensures (succeeds folder arguments) host before post := by
  have hrun : Ensures (execute folder arguments) host before fun result calls after =>
      result.toOption.isSome = (git.attempt before (some folder) arguments).succeeded ∧
        calls = [git.attempt before (some folder) arguments] ∧
        after.view = before.view.behind (git.attempt before (some folder) arguments) := by
    exact ensures_execute hgit fun after hafter =>
      ⟨Command.isSome_toOption_conclude _ _, rfl, hafter⟩
  refine Ensures.bind_attempt hrun ?_
  intro result calls after hrun
  obtain ⟨hresult, rfl, hafter⟩ := hrun
  rw [hresult]
  exact Ensures.pure (h after hafter)

/-- Running a command makes no call but attempts to run it. -/
theorem Makes.run {command : Command} {property : Call → Prop}
    (h : ∀ call, call.Runs command → property call) : Makes command.run property := by
  intro host before
  apply ensures_run
  · simp
  · intro git _ call hcall
    subst hcall
    simpa using h _ (command.callBy_runs git before)

/-- Running git in a folder makes calls in that folder that name the command. -/
theorem Makes.execute {folder : Path} {name : String} {arguments names : List String}
    (hname : name ∈ names) :
    Makes (execute folder (name :: arguments)) fun call => call.Names folder names := by
  apply Makes.run
  intro call hruns
  obtain ⟨hfolder, harguments, -⟩ := hruns
  rw [Command.map_text_plain_within] at harguments
  exact ⟨hfolder, name, hname, by simp [harguments]⟩

/-- Calls that name some commands name some of more commands. -/
theorem Makes.widen [KeepsCalls State] {action : Action State α} {folder : Path}
    {names more : List String} (h : Makes action fun call => call.Names folder names)
    (hmore : names ⊆ more) : Makes action fun call => call.Names folder more := by
  refine h.mono fun call => ?_
  intro hnames
  obtain ⟨hfolder, name, hname, hhead⟩ := hnames
  exact ⟨hfolder, name, hmore hname, hhead⟩

end WorkingCopies
