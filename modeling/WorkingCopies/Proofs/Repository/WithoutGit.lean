import WorkingCopies.Proofs.Git.Files
import WorkingCopies.Proofs.Origin.Guard
import WorkingCopies.Proofs.Repository.Commands
import WorkingCopies.Proofs.Repository.Source

/-!
# Where git is not installed

Without git an action goes on as with it up to the first command, and stops there. Most commands
fail for want of git. A probe does not: to it a command that cannot be run and a name that leads
nowhere are the same, so an action that has to find out first what a reference names fails as if the
reference named nothing.
-/

namespace WorkingCopies

open Git (Call Command)
open Reference (probeCommands)

/-- A state that keeps the files. -/
class KeepsFiles (State : Type) where
  files : State → FileSystem

instance : KeepsFiles Workspace := ⟨Workspace.files⟩

instance : KeepsFiles (Repository × Workspace) := ⟨fun state => state.2.files⟩

/-- What stands in the way of a call where git is not installed, in an action that asks what a
reference names. -/
def failureWithout (reference : String) (call : Call) : Failure :=
  if call.arguments.head? = some "merge-base" then .unresolvable reference else .toolMissing "git"

variable {State α β : Type} [KeepsCalls State] [KeepsFiles State] {environment : Environment}
  {reference : String} {before : State}

/-- Whether an action does without git what it does with any git up to the first call, and where
there is one stops with the failure that stands in its way, among the files that it would find. -/
def StopsWithout (environment : Environment) (reference : String) (action : Action State α)
    (before : State) : Prop :=
  ∀ git, Ensures action ⟨some git, environment⟩ before fun result calls after =>
    match calls with
    | [] => action.outcome ⟨none, environment⟩ before = (result, after)
    | first :: _ => ∃ stopped,
      action.outcome ⟨none, environment⟩ before =
        (.error (failureWithout reference first), stopped) ∧
      KeepsCalls.calls stopped = KeepsCalls.calls before ∧
      KeepsFiles.files stopped = first.before

namespace StopsWithout

/-- What has nothing to do with git goes on without it. -/
theorem of_same {action : Action State α}
    (h : ∀ git, action.outcome ⟨some git, environment⟩ before =
      action.outcome ⟨none, environment⟩ before)
    (hcalls : KeepsCalls.calls (action.outcome ⟨none, environment⟩ before).2 =
      KeepsCalls.calls before) : StopsWithout environment reference action before :=
  fun git => ⟨[], by rw [h git]; exact hcalls, (h git).symm⟩

/-- Giving a value goes on. -/
theorem pure {value : α} :
    StopsWithout environment reference (Pure.pure value : Action State α) before :=
  of_same (fun _ => rfl) rfl

/-- Failing is the same with and without git. -/
theorem throw {failure : Failure} :
    StopsWithout environment reference (MonadExcept.throw failure : Action State α) before :=
  of_same (fun _ => rfl) rfl

/-- Behind an action that stops where it calls git, what follows is reached only if it did not. It
has to stop in its turn at the states that are reached so; elsewhere it may do anything. -/
theorem bind_of_reached {action : Action State α} {next : α → Action State β}
    (first : StopsWithout environment reference action before)
    (rest : ∀ value after, action.outcome ⟨none, environment⟩ before = (.ok value, after) →
      StopsWithout environment reference (next value) after)
    (hnext : ∀ git value after, Ensures (next value) ⟨some git, environment⟩ after
      fun _ _ _ => True) :
    StopsWithout environment reference (action >>= next) before := by
  intro git
  refine Ensures.bind (first git).with_calls ?_ ?_
  · rintro value calls after ⟨hcalls, hfirst⟩
    cases calls with
    | nil =>
      refine (rest value after hfirst git).mono fun result more last hmore => ?_
      rw [List.nil_append]
      cases more with
      | nil => rwa [outcome_bind_of_ok (congrArg Prod.fst hfirst), hfirst]
      | cons call more =>
        obtain ⟨stopped, hstopped, hkept, hfiles⟩ := hmore
        refine ⟨stopped, ?_, hkept.trans hcalls, hfiles⟩
        rwa [outcome_bind_of_ok (congrArg Prod.fst hfirst), hfirst]
    | cons call calls =>
      refine (hnext git value after).mono fun result more last _ => ?_
      obtain ⟨stopped, hstopped, hkept, hfiles⟩ := hfirst
      refine ⟨stopped, ?_, hkept, hfiles⟩
      rw [outcome_bind_of_error (congrArg Prod.fst hstopped), hstopped]
  · rintro failure calls after ⟨-, hfirst⟩
    cases calls with
    | nil => rw [outcome_bind_of_error (congrArg Prod.fst hfirst), hfirst]
    | cons call calls =>
      obtain ⟨stopped, hstopped, hkept, hfiles⟩ := hfirst
      refine ⟨stopped, ?_, hkept, hfiles⟩
      rw [outcome_bind_of_error (congrArg Prod.fst hstopped), hstopped]

/-- Two actions in turn stop if both do. -/
theorem bind {action : Action State α} {next : α → Action State β}
    (first : StopsWithout environment reference action before)
    (rest : ∀ value after, StopsWithout environment reference (next value) after) :
    StopsWithout environment reference (action >>= next) before :=
  first.bind_of_reached (fun value after _ => rest value after) fun git value after =>
    (rest value after git).mono fun _ _ _ _ => trivial

/-- What follows an action that cannot succeed without git may do anything. -/
theorem bind_of_fails {action : Action State α} {next : α → Action State β}
    {property : Call → Prop} (first : StopsWithout environment reference action before)
    (hfails : Action.Fails action ⟨none, environment⟩)
    (hnext : ∀ value, Makes (next value) property) :
    StopsWithout environment reference (action >>= next) before := by
  refine first.bind_of_reached ?_ fun git value after =>
    (hnext value _ after).mono fun _ _ _ _ => trivial
  intro value after hvalue
  obtain ⟨failure, hfailure⟩ := hfails before
  rw [hvalue] at hfailure
  cases hfailure

/-- An action that succeeds with the same value and in the same state, with git and without, can be
taken as done. -/
theorem step {action : Action State α} {next : α → Action State β} {value : α}
    (haction : ∀ git, action.outcome ⟨git, environment⟩ before = (.ok value, before))
    (h : StopsWithout environment reference (next value) before) :
    StopsWithout environment reference (action >>= next) before := by
  have hnext (git : Option Git) : Action.outcome (action >>= next) ⟨git, environment⟩ before =
      (next value).outcome ⟨git, environment⟩ before := by
    rw [outcome_bind, haction git]
  intro git
  obtain ⟨calls, hcalls, hpost⟩ := h git
  refine ⟨calls, ?_, ?_⟩
  · rwa [hnext]
  · rwa [hnext, hnext]

/-- Changing the value of a result changes nothing else. -/
theorem map {action : Action State α} {change : α → β}
    (h : StopsWithout environment reference action before) :
    StopsWithout environment reference (change <$> action) before := by
  rw [map_eq_pure_bind]
  exact h.bind fun _ _ => pure

/-- Forgetting the value of a result changes nothing else. -/
theorem discard {action : Action State α}
    (h : StopsWithout environment reference action before) :
    StopsWithout environment reference (Functor.discard action) before :=
  map h

section Operations

variable {before : Workspace} {folder : Path} {name : String} {arguments : List String}

/-- An edit has nothing to do with git. -/
theorem edit {change : FileSystem.Edit α} :
    StopsWithout environment reference (Operation.edit change) before := by
  refine of_same (fun git => ?_) ?_
  · rw [outcome_edit, outcome_edit]
  · rw [outcome_edit]
    rfl

/-- An attempt at an edit has nothing to do with it either. -/
theorem attempt_edit {change : FileSystem.Edit α} :
    StopsWithout environment reference (Operation.edit change).attempt before := by
  have hsame (host : Host) : Action.outcome (Operation.edit change).attempt host before =
      (.ok (Action.outcome (Operation.edit change) host before).1,
        (Action.outcome (Operation.edit change) host before).2) := rfl
  refine of_same (fun git => ?_) ?_
  · rw [hsame, hsame, outcome_edit, outcome_edit]
  · rw [hsame, outcome_edit]
    rfl

/-- A report has nothing to do with git. -/
theorem report {level : Log.Level} {topic : Log.Topic} {text : String} :
    StopsWithout environment reference (Operation.report level topic text) before :=
  of_same (fun _ => rfl) rfl

/-- A command stops for want of git. -/
theorem run {command : Command}
    (hprobe : (command.arguments.map (·.text)).head? ≠ some "merge-base") :
    StopsWithout environment reference command.run before := by
  intro git
  refine ensures_run (fun hmissing => nomatch hmissing) ?_
  rintro other hother call rfl
  obtain rfl := Option.some.inj hother
  refine ⟨before, ?_, rfl, (command.before_callBy git before).symm⟩
  rw [outcome_run, failureWithout, (command.callBy_runs git before).arguments, if_neg hprobe]

/-- Running git in a folder stops for want of it. -/
theorem execute (hname : name ≠ "merge-base") :
    StopsWithout environment reference (Git.execute folder (name :: arguments)) before :=
  run (by simpa using hname)

/-- Reading what git writes as a text is the same command. -/
theorem executeText (hname : name ≠ "merge-base") :
    StopsWithout environment reference (Git.executeText folder (name :: arguments)) before :=
  (execute hname).bind fun _ _ => pure

/-- An operation does as a task what it does by itself. -/
theorem ofOperation {before : Repository × Workspace} {operation : Operation α}
    (h : StopsWithout environment reference operation before.2) :
    StopsWithout environment reference (Task.ofOperation operation) before := by
  have hwithout {result : Except Failure α} {after : Workspace}
      (hafter : Action.outcome operation ⟨none, environment⟩ before.2 = (result, after)) :
      Action.outcome (Task.ofOperation operation) ⟨none, environment⟩ before =
        (result, before.1, after) := by
    have htask := Task.carryOut_ofOperation operation ⟨none, environment⟩ before.1 before.2
    have hsame : operation.carryOut ⟨none, environment⟩ before.2 = (result, after) := hafter
    rw [hsame] at htask
    exact htask
  intro git
  refine Ensures.ofOperation ((h git).mono fun result calls after hafter => ?_)
  cases calls with
  | nil => exact hwithout hafter
  | cons call calls =>
    obtain ⟨stopped, hstopped, hkept, hfiles⟩ := hafter
    exact ⟨(before.1, stopped), hwithout hstopped, hkept, hfiles⟩

end Operations

end StopsWithout

section Steps

variable {before : Workspace} {workingCopy : Path}

/-- Without git a probe finds nothing, so no reference but `HEAD` is found to name something. -/
theorem outcome_classify_without (hreference : reference ≠ "HEAD") :
    Action.outcome (Reference.classify workingCopy reference) ⟨none, environment⟩ before =
      (.error (.unresolvable reference), before) := by
  unfold Reference.classify
  rw [if_neg hreference]
  rfl

/-- Finding out what a reference other than `HEAD` names starts with a probe. -/
theorem ensures_classify_probes {git : Git} (hreference : reference ≠ "HEAD") :
    Ensures (Reference.classify workingCopy reference) ⟨some git, environment⟩ before
      fun _ calls _ => ∃ call more, calls = call :: more ∧
        call.arguments.head? = some "merge-base" ∧ call.before = before.files := by
  have hfirst : Ensures (Reference.leadsToCommit workingCopy reference) ⟨some git, environment⟩
      before fun result calls _ => (∃ leads, result = .ok leads) ∧ ∃ call : Call,
        calls = [call] ∧ call.arguments.head? = some "merge-base" ∧
          call.before = before.files :=
    ensures_succeeds rfl fun after _ => ⟨⟨_, rfl⟩, _, rfl,
      by rw [Git.arguments_attempt]; rfl, Git.before_attempt git before _ _⟩
  unfold Reference.classify
  rw [if_neg hreference]
  refine Ensures.bind hfirst ?_ fun failure calls after hfailure => nomatch hfailure.1
  rintro leads _ after ⟨-, call, rfl, hprobes⟩
  -- what follows is probes again, which only come behind the first
  have hrest := @Reference.madeOf_classifyQualified workingCopy reference
  refine Ensures.mono (MadeOf.makes (?_ : MadeOf (·.Names workingCopy probeCommands) _) _ after)
    fun _ more _ _ => ⟨call, more, rfl, hprobes⟩
  refine .ite (fun _ => ?_) fun _ => hrest
  refine .bind (Reference.madeOf_fullNameExists _) fun _ => .ite (fun _ => .pure _) fun _ => ?_
  exact .bind (Reference.madeOf_fullNameExists _) fun _ => .ite (fun _ => .pure _) fun _ => hrest

/-- Finding out what a reference names stops as if it named nothing. -/
theorem stops_classify :
    StopsWithout environment reference (Reference.classify workingCopy reference) before := by
  by_cases hhead : reference = "HEAD"
  · unfold Reference.classify
    rw [if_pos hhead]
    exact .pure
  · intro git
    refine (ensures_classify_probes hhead).mono ?_
    rintro _ _ _ ⟨call, more, rfl, hprobes, hbefore⟩
    refine ⟨before, ?_, rfl, hbefore.symm⟩
    rw [outcome_classify_without hhead, failureWithout, if_pos hprobes]

/-- Spelling a reference for git stops where it is found out what it names. -/
theorem stops_qualifiedName :
    StopsWithout environment reference (Reference.qualifiedName workingCopy reference) before :=
  stops_classify.bind fun _ _ => .pure

/-- Finding the hash of a reference stops there, too. -/
theorem stops_hashOf :
    StopsWithout environment reference (WorkingCopy.hashOf workingCopy reference) before :=
  stops_qualifiedName.bind fun _ _ => .executeText (by decide)

/-- Finding the names of a commit stops where its hash does. -/
theorem stops_namesOf :
    StopsWithout environment reference (WorkingCopy.namesOf workingCopy reference) before :=
  stops_hashOf.bind fun _ _ => .bind (.executeText (by decide)) fun _ _ => .pure

/-- Looking for changes stops at its command. -/
theorem stops_hasChanges :
    StopsWithout environment reference (WorkingCopy.hasChanges workingCopy) before :=
  .bind (.execute (by decide)) fun _ _ => .pure

/-- Writing a file of a reference stops behind the folder that it is written to. -/
theorem stops_showFile {file : String} {folder : Path} :
    StopsWithout environment reference (WorkingCopy.showFile workingCopy reference file folder)
      before := by
  refine .bind .edit fun _ _ => stops_qualifiedName.bind fun _ _ => .bind .report fun _ _ =>
    .bind (.execute (by decide)) fun _ _ => ?_
  split
  · exact .bind .edit fun _ _ => .edit
  · exact .edit

/-- A checkout stops where it is found out what the reference names, and at the latest at the
command that carries it out. -/
theorem stops_checkout :
    StopsWithout environment reference (checkout workingCopy reference) before := by
  have hkind (kind : Reference.Kind) (after : Workspace) :
      StopsWithout environment reference (checkoutKind workingCopy reference kind) after := by
    unfold checkoutKind
    split
    · exact .bind .report fun _ _ => .discard (.execute (by decide))
    · exact .bind .report fun _ _ => .discard (.execute (by decide))
  exact stops_classify.bind fun kind after => (hkind kind after).bind fun _ _ =>
    .bind (.discard (.execute (by decide))) fun _ _ => .discard (.execute (by decide))

/-- A checkout does not succeed without git. -/
theorem fails_checkout : Action.Fails (checkout workingCopy reference) ⟨none, environment⟩ :=
  .behind fun _ => .behind fun _ => .first (.discard (fails_run rfl _))

/-- The merge behind a checkout is not reached. -/
theorem stops_checkoutAndMerge :
    StopsWithout environment reference (checkoutAndMerge workingCopy reference) before :=
  stops_checkout.bind_of_fails fails_checkout fun _ => .discard (madeOf_tryMerge reference).makes

/-- Cloning stops behind the folder that the working copy goes into. -/
theorem stops_clone {url shown branch : String} {target : Path} :
    StopsWithout environment reference (WorkingCopy.clone url shown branch target) before := by
  have hclone (after : Workspace) : StopsWithout environment reference
      (discard (WorkingCopy.cloneCommand url shown branch target).run) after :=
    .discard (.run (by simp [WorkingCopy.cloneCommand]))
  unfold WorkingCopy.clone
  split
  · exact .bind .edit fun _ after => hclone after
  · exact hclone before

/-- A clone does not succeed without git. -/
theorem fails_clone {url shown branch : String} {target : Path} :
    Action.Fails (WorkingCopy.clone url shown branch target) ⟨none, environment⟩ := by
  unfold WorkingCopy.clone
  split
  · exact .behind fun _ => .discard (fails_run rfl _)
  · exact .discard (fails_run rfl _)

/-- Removing a working copy has nothing to do with git. -/
theorem stops_remove :
    StopsWithout environment reference (WorkingCopy.remove workingCopy) before := by
  refine .bind .attempt_edit fun result after => ?_
  split
  · exact .pure
  · split
    · exact .pure
    · exact .throw
  · exact .throw

/-- Setting a URL stops at its command. -/
theorem stops_setUrl {url password : String} :
    StopsWithout environment reference (Origin.setUrl workingCopy url password) before :=
  .discard (.run (by simp [Origin.setUrlCommand, Command.within]))

/-- A command that needs the login stops before it is tried, at the URL that is set for it. -/
theorem stops_runAuthenticated {urls : RemoteUrls} {password name : String}
    {arguments : List String} (hname : name ≠ "merge-base") :
    StopsWithout environment reference
      (Origin.runAuthenticated workingCopy urls password (.plain (name :: arguments))) before := by
  cases hurls : urls.needAccess with
  | false =>
    rw [Origin.runAuthenticated_eq hurls]
    exact .execute hname
  | true =>
    unfold Origin.runAuthenticated
    simp only [hurls, if_true]
    exact stops_setUrl.bind_of_fails (.discard (fails_run rfl _)) fun _ =>
      Origin.makes_restoringAfter _ _ (fun _ _ => trivial) (.run fun _ _ => trivial)

/-- Fetching from a source stops at the first command of it. -/
theorem stops_fetchFrom {source : Source} :
    StopsWithout environment reference (Repository.fetchFrom workingCopy source) before := by
  cases source with
  | hosted hosted =>
    exact .bind .report fun _ _ =>
      .step (fun _ => rfl) (.discard (stops_runAuthenticated (by decide)))
  | remote url => exact .bind .report fun _ _ => .discard (.execute (by decide))
  | folder path => exact .pure

/-- Setting the origin right stops at the question for its URL. -/
theorem stops_repairOrigin {source : Source} :
    StopsWithout environment reference (Repository.repairOrigin workingCopy source) before := by
  have hrepair (expected password : String) : StopsWithout environment reference
      (Origin.repair workingCopy expected password) before := by
    refine .bind (.executeText (by decide)) fun current after => ?_
    split
    · exact .bind .report fun _ _ => .pure
    · exact .bind .report fun _ _ => stops_setUrl.bind fun _ _ => .pure
  cases source with
  | hosted hosted => exact .step (fun _ => rfl) (.discard (hrepair _ _))
  | remote url => exact .discard (hrepair _ _)
  | folder path => exact .pure

/-- Making a working copy stops at the clone, and of a folder at the checkout behind the copy. -/
theorem stops_downloadFrom {target : Path} {source : Source} :
    StopsWithout environment reference (Repository.downloadFrom reference target source)
      before := by
  cases source with
  | hosted hosted =>
    refine .step (fun _ => rfl) (.bind .report fun _ _ => ?_)
    exact stops_clone.bind_of_fails fails_clone fun _ =>
      Origin.makes_restoringAfter _ _ (fun _ _ => trivial)
        ((makes_checkout reference).mono fun _ _ => trivial)
  | remote url => exact .bind .report fun _ _ => stops_clone.bind fun _ _ => stops_checkout
  | folder path => exact .bind .report fun _ _ => .bind .edit fun _ _ => stops_checkout

end Steps

namespace Repository

variable {repository : Repository} {workspace : Workspace} {workingCopy : Path}

/-- A fetch under the latch stops where the fetch from the source does, or has nothing to do. -/
theorem stops_fetch :
    StopsWithout environment reference (fetch workingCopy) (repository, workspace) := by
  have houtcome : Action.outcome (fetch workingCopy) ⟨none, environment⟩ (repository, workspace) =
      _ := carryOut_fetch workingCopy _ _ _
  intro git
  cases hclosed : repository.fetched.isClosed with
  | true =>
    refine ensures_fetch_of_closed hclosed ?_
    rw [houtcome, if_pos hclosed]
  | false =>
    rw [hclosed, if_neg Bool.false_ne_true] at houtcome
    have hfrom : StopsWithout environment reference (fetchFrom workingCopy repository.source)
        workspace := stops_fetchFrom
    refine ensures_fetch_of_open hclosed ((hfrom git).mono ?_)
    intro result calls after hafter
    cases calls with
    | nil =>
      have hsame : (fetchFrom workingCopy repository.source).carryOut ⟨none, environment⟩
        workspace = (result, after) := hafter
      rw [houtcome, hsame]
    | cons first later =>
      obtain ⟨stopped, hstopped, hkept, hfiles⟩ := hafter
      have hsame : (fetchFrom workingCopy repository.source).carryOut ⟨none, environment⟩
        workspace = (_, stopped) := hstopped
      rw [houtcome, hsame]
      exact ⟨_, rfl, hkept, hfiles⟩

/-- A fetch leaves the chosen reference. -/
theorem commit_fetch {host : Host} {result : Except Failure Unit} {after : Repository × Workspace}
    (h : Action.outcome (fetch workingCopy) host (repository, workspace) = (result, after)) :
    after.1.commit = repository.commit := by
  have hkept := @keeps_fetch _ (·.commit) workingCopy (fun _ _ => rfl) host (repository, workspace)
  rwa [h] at hkept

/-- Giving a file stops at the fetch, or where it is found out what the chosen reference names. A
file of a folder is given without git. -/
theorem stops_fetchFile {file : String} {folder : Path} :
    StopsWithout environment repository.commit (fetchFile workingCopy file folder)
      (repository, workspace) := by
  refine .step (fun _ => rfl) ?_
  dsimp only
  split
  · exact .ofOperation (.bind .report fun _ _ => .edit)
  · refine stops_fetch.bind_of_reached ?_ ?_
    · intro _ after hafter
      refine .step (fun _ => rfl) (.ofOperation ?_)
      rw [← commit_fetch hafter]
      exact stops_showFile
    · intro git _ after
      have hrest : Makes (get >>= fun state : Repository × Workspace => Task.ofOperation
          (WorkingCopy.showFile workingCopy state.1.commit file folder)) fun _ => True :=
        .bind (.silent fun _ _ => rfl) fun _ =>
          .ofOperation ((WorkingCopy.makes_showFile _ _ _).mono fun _ _ => trivial)
      exact (hrest _ after).mono fun _ _ _ _ => trivial

/-- An update stops at the fetch, or at a checkout. -/
theorem stops_update :
    StopsWithout environment reference (update workingCopy reference) (repository, workspace) := by
  refine .step (fun _ => rfl) ?_
  dsimp only
  split
  · exact .bind (.ofOperation stops_remove) fun _ _ => .ofOperation stops_downloadFrom
  · exact stops_fetch.bind fun _ _ => .bind (.ofOperation stops_checkoutAndMerge) fun _ _ =>
      .ofOperation stops_checkout

namespace Request

/-- The reference of which a request finds out what it names. -/
def probed (repository : Repository) : Request → String
  | fetchFile .. => repository.commit
  | download reference _ | update _ reference | hashOf _ reference | namesOf _ reference
  | kindOf _ reference => reference
  | commit | setCommit _ | repairOrigin _ | hasChanges _ => ""

/-- Every request stops. -/
theorem stops_serve (request : Request) :
    StopsWithout environment (request.probed repository) request.serve
      (repository, workspace) := by
  cases request with
  | commit => exact .of_same (fun _ => rfl) rfl
  | setCommit reference => exact .of_same (fun _ => rfl) rfl
  | fetchFile workingCopy file folder => exact stops_fetchFile.bind fun _ _ => .pure
  | download reference target =>
    exact .bind (.step (fun _ => rfl) (.ofOperation stops_downloadFrom)) fun _ _ => .pure
  | update workingCopy reference => exact stops_update.bind fun _ _ => .pure
  | repairOrigin workingCopy =>
    exact .step (fun _ => rfl) (.bind (.ofOperation stops_repairOrigin) fun _ _ => .pure)
  | hashOf workingCopy reference => exact .bind (.ofOperation stops_hashOf) fun _ _ => .pure
  | namesOf workingCopy reference => exact .bind (.ofOperation stops_namesOf) fun _ _ => .pure
  | kindOf workingCopy reference => exact .bind (.ofOperation stops_classify) fun _ _ => .pure
  | hasChanges workingCopy => exact .bind (.ofOperation stops_hasChanges) fun _ _ => .pure

end Request

end Repository

/-- Without git every request to a repository, every checkout and every checkout with a merge goes
on as with any git up to the first command. There it stops, for want of git, or, where that command
is a probe, as if the reference named nothing. -/
theorem stops_without_git (environment : Environment) :
    (∀ (request : Repository.Request) (repository : Repository) (workspace : Workspace),
      StopsWithout environment (request.probed repository) request.serve
        (repository, workspace)) ∧
    (∀ (workingCopy : Path) (reference : String) (workspace : Workspace),
      StopsWithout environment reference (checkout workingCopy reference) workspace ∧
        StopsWithout environment reference (checkoutAndMerge workingCopy reference) workspace) :=
  ⟨fun request _ _ => request.stops_serve, fun _ _ _ => ⟨stops_checkout, stops_checkoutAndMerge⟩⟩

/-- The kind of a branch: with git it is found by two calls, and without it the branch is said to
name nothing, though git is what is missing, as a question for changes says. -/
theorem kind_of_branch_without_git :
    let git : Git := fun _ files _ => .ok ({}, files)
    let workspace : Workspace := { files := { entries := [(["w"], .folder)] } }
    let repository : Repository := { source := .remote "https://git.example/w.git" }
    let serve (git : Option Git) (request : Repository.Request) :=
      Action.outcome request.serve ⟨git, ⟨[]⟩⟩ (repository, workspace)
    (serve (some git) (.kindOf ⟨"w"⟩ "main")).1 = .ok (.kind .localBranch) ∧
      ((serve (some git) (.kindOf ⟨"w"⟩ "main")).2.2.calls.map (·.arguments)) =
        [["show-ref", "--verify", "--quiet", "refs/heads/main"], ["merge-base", "main", "main"]] ∧
      (serve none (.kindOf ⟨"w"⟩ "main")).1 = .error (.unresolvable "main") ∧
      (serve none (.hasChanges ⟨"w"⟩)).1 = .error (.toolMissing "git") := by
  intro git workspace repository serve
  have hserved : (serve (some git) (.kindOf ⟨"w"⟩ "main")).1 = .ok (.kind .localBranch) ∧
      ((serve (some git) (.kindOf ⟨"w"⟩ "main")).2.2.calls.map (·.arguments)) =
        [["show-ref", "--verify", "--quiet", "refs/heads/main"],
          ["merge-base", "main", "main"]] := by
    decide +kernel
  exact ⟨hserved.1, hserved.2, rfl, rfl⟩

end WorkingCopies
