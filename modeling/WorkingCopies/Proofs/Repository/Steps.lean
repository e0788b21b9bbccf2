import WorkingCopies.Proofs.FileSystem.Edit
import WorkingCopies.Proofs.Git.Step
import WorkingCopies.Proofs.Reference.Consult
import WorkingCopies.Proofs.Repository.BestEffort
import WorkingCopies.Proofs.Repository.Download
import WorkingCopies.Proofs.WorkingCopy.Branches
import WorkingCopies.Proofs.WorkingCopy.Hash

/-!
# The steps of a download and an update

A download and an update go on step by step, and each step ends the whole where it fails. Three kinds
of calls may fail without harm: the probes that come before a checkout, the merge that an update
tries, and those that put the visible URL back behind a command that needed the login.
-/

namespace WorkingCopies

open Git (Call Command)
open Origin (setUrlArguments urlArguments)
open Reference (probeCommands)
open Repository (fetchArguments)

variable {ε : Type} {host : Host} {git : Git} {before : Workspace} {workingCopy target : Path}
  {reference : String} {urls : RemoteUrls} {password : String} {source : Source}

namespace Git.Step

/-- Probes, which may fail or not. -/
def probes (workingCopy : Path) : Step where
  passes calls := ∀ call ∈ calls, call.Names workingCopy probeCommands
  fails calls := ∀ call ∈ calls, call.Names workingCopy probeCommands

/-- A checkout of a reference, with its submodules. -/
def checkout (workingCopy : Path) (reference : String) : Step :=
  inTurn [probes workingCopy,
    must (some workingCopy) [["checkout", reference], creationArguments reference]
      (·.succeeded = true),
    command (some workingCopy) ["submodule", "init"],
    command (some workingCopy) ["submodule", "update"]]

/-- A merge that is tried behind probes. It does no harm. -/
def merge (workingCopy : Path) : Step where
  passes calls := (∀ call ∈ calls, call.Names workingCopy ("merge" :: probeCommands)) ∧
    calls.countP Call.isMerge ≤ 1
  fails _ := False

/-- A step behind which the visible URL is put back, if there is another one with the login. It does
not matter whether the step fails, nor whether putting the URL back does. -/
def restoring (workingCopy : Path) (urls : RemoteUrls) (step : Step) : Step :=
  if urls.needAccess then {
    passes calls := ∃ inner, ∃ back : Call, step.passes inner ∧
      back.Asks (some workingCopy) [setUrlArguments urls.visible] ∧ calls = inner ++ [back]
    fails calls := ∃ inner, ∃ back : Call, step.fails inner ∧
      back.Asks (some workingCopy) [setUrlArguments urls.visible] ∧ calls = inner ++ [back] }
  else step

/-- Without a login nothing has to be put back. -/
theorem restoring_of_not (hurls : urls.needAccess = false) (step : Step) :
    restoring workingCopy urls step = step := by
  rw [restoring, hurls, if_neg Bool.false_ne_true]

/-- A fetch, for which the URL with the login is set if there is one. -/
def fetch (workingCopy : Path) (urls : RemoteUrls) : Step :=
  inTurn [if urls.needAccess then
      command (some workingCopy) (setUrlArguments urls.authenticated) else done,
    restoring workingCopy urls (command (some workingCopy) fetchArguments)]

/-- Without a login a fetch is one command. -/
theorem fetch_of_not (hurls : urls.needAccess = false) :
    fetch workingCopy urls = command (some workingCopy) fetchArguments := by
  simp [fetch, restoring_of_not, hurls, inTurn]

/-- A text that git is asked for, and a step that goes by it. -/
def reading (workingCopy : Path) (arguments : List String) (next : String → Step) : Step where
  passes calls := ∃ asked : Call, ∃ text later, asked.Asks (some workingCopy) [arguments] ∧
    asked.Writes text ∧ (next text).passes later ∧ calls = asked :: later
  fails calls := ∃ asked : Call, asked.Asks (some workingCopy) [arguments] ∧
    (asked.succeeded = false ∧ calls = [asked] ∨
      ∃ text later, asked.Writes text ∧ (next text).fails later ∧ calls = asked :: later)

/-- The origin is found as it is to be, or is set so. -/
def origin (workingCopy : Path) (url : String) : Step :=
  reading workingCopy urlArguments fun text =>
    if text = url then done else command (some workingCopy) (setUrlArguments url)

/-- The steps of an update from a source, and of setting the origin right behind it. -/
def updating (environment : Environment) (workingCopy : Path) (reference : String) :
    Source → List Step
  | .folder _ => [unseen, unseen, checkout workingCopy reference]
  | source =>
    let urls := source.urls environment
    [fetch workingCopy urls, checkout workingCopy reference, merge workingCopy,
      checkout workingCopy reference, origin workingCopy urls.visible]

/-- The steps of an update from a network. -/
theorem updating_of_network {environment : Environment} (hnetwork : source.isNetwork = true) :
    updating environment workingCopy reference source =
      [fetch workingCopy (source.urls environment), checkout workingCopy reference,
        merge workingCopy, checkout workingCopy reference] ++
      [origin workingCopy (source.urls environment).visible] := by
  cases source with
  | folder path => cases hnetwork
  | hosted hosted => rfl
  | remote url => rfl

/-- The steps of a download from a source, where some files are found. -/
def downloading (files : FileSystem) (environment : Environment) (target : Path)
    (reference : String) : Source → List Step
  | .folder path =>
    [holds (((FileSystem.copyFolder path target).outcome files).1 = .ok ()),
      checkout target reference]
  | source =>
    let urls := source.urls environment
    [unseen, command none (cloneArguments urls target),
      restoring target urls (checkout target reference)]

/-- A call that may fail without harm: a probe, a merge, or one that puts the visible URL back where
there is another one with the login. -/
def IsHarmless (workingCopy : Path) (urls : RemoteUrls) (call : Call) : Prop :=
  call.Names workingCopy ("merge" :: probeCommands) ∨
    urls.needAccess = true ∧ call.Asks (some workingCopy) [setUrlArguments urls.visible]

/-- Among probes only harmless calls fail. -/
theorem spares_probes : (probes workingCopy).Spares (IsHarmless workingCopy urls) := by
  intro calls hprobes call hcall _
  obtain ⟨hfolder, name, hname, hhead⟩ := hprobes call hcall
  exact .inl ⟨hfolder, name, List.mem_cons_of_mem _ hname, hhead⟩

/-- In a checkout that is made only probes fail. -/
theorem spares_checkout :
    (checkout workingCopy reference).Spares (IsHarmless workingCopy urls) := by
  refine .inTurn fun step hstep => ?_
  simp only [List.mem_cons, List.not_mem_nil, or_false] at hstep
  rcases hstep with rfl | rfl | rfl | rfl
  · exact spares_probes
  all_goals exact .must fun _ => id

/-- A merge that is tried is harmless. -/
theorem spares_merge : (merge workingCopy).Spares (IsHarmless workingCopy urls) :=
  fun _ hpasses call hcall _ => .inl (hpasses.1 call hcall)

/-- Putting the visible URL back is harmless. -/
theorem spares_restoring {step : Step} (h : step.Spares (IsHarmless workingCopy urls)) :
    (restoring workingCopy urls step).Spares (IsHarmless workingCopy urls) := by
  unfold restoring
  split
  · next hurls =>
    rintro _ ⟨inner, back, hinner, hback, rfl⟩ call hcall hfailed
    rcases List.mem_append.mp hcall with hcall | hcall
    · exact h inner hinner call hcall hfailed
    · obtain rfl := List.mem_singleton.mp hcall
      exact .inr ⟨hurls, hback⟩
  · exact h

/-- In a fetch that succeeds nothing fails but putting the visible URL back. -/
theorem spares_fetch : (fetch workingCopy urls).Spares (IsHarmless workingCopy urls) := by
  refine .inTurn fun step hstep => ?_
  simp only [List.mem_cons, List.not_mem_nil, or_false] at hstep
  rcases hstep with rfl | rfl
  · split
    · exact .must fun _ => id
    · exact .done
  · exact spares_restoring (.must fun _ => id)

/-- Where the origin was set right nothing failed. -/
theorem spares_origin {url : String} {spared : Call → Prop} :
    (origin workingCopy url).Spares spared := by
  rintro _ ⟨asked, text, later, -, hwrites, hlater, rfl⟩ call hcall hfailed
  rcases List.mem_cons.mp hcall with rfl | hcall
  · rw [hwrites.succeeded] at hfailed
    cases hfailed
  · have hnext : (if text = url then done else
        command (some workingCopy) (setUrlArguments url)).Spares spared := by
      split
      · exact .done
      · exact .must fun _ => id
    exact hnext later hlater call hcall hfailed

/-- In an update that succeeds only harmless calls fail. -/
theorem spares_updating {environment : Environment} :
    (inTurn (updating environment workingCopy reference source)).Spares
      (IsHarmless workingCopy (source.urls environment)) := by
  refine .inTurn fun step hstep => ?_
  cases hnetwork : source.isNetwork with
  | true =>
    rw [updating_of_network hnetwork] at hstep
    simp only [List.cons_append, List.nil_append, List.mem_cons, List.not_mem_nil,
      or_false] at hstep
    rcases hstep with rfl | rfl | rfl | rfl | rfl
    · exact spares_fetch
    · exact spares_checkout
    · exact spares_merge
    · exact spares_checkout
    · exact spares_origin
  | false =>
    cases source with
    | hosted hosted => cases hnetwork
    | remote url => cases hnetwork
    | folder path =>
      simp only [updating, List.mem_cons, List.not_mem_nil, or_false] at hstep
      rcases hstep with rfl | rfl | rfl
      · exact .unseen
      · exact .unseen
      · exact spares_checkout

/-- In a download that succeeds only harmless calls fail. -/
theorem spares_downloading {files : FileSystem} {environment : Environment} :
    (inTurn (downloading files environment target reference source)).Spares
      (IsHarmless target (source.urls environment)) := by
  have hnetwork (urls : RemoteUrls) : (inTurn [unseen, command none (cloneArguments urls target),
      restoring target urls (checkout target reference)]).Spares (IsHarmless target urls) := by
    refine .inTurn fun step hstep => ?_
    simp only [List.mem_cons, List.not_mem_nil, or_false] at hstep
    rcases hstep with rfl | rfl | rfl
    · exact .unseen
    · exact .must fun _ => id
    · exact spares_restoring spares_checkout
  cases source with
  | hosted hosted => exact hnetwork _
  | remote url => exact hnetwork _
  | folder path => exact .andThen .holds (.andThen spares_checkout .done)

end Git.Step

open Git (Step)

/-- Classifying a reference takes probes. -/
theorem takes_classify : Takes host (Step.probes workingCopy)
    (Reference.classify workingCopy reference) := by
  refine fun before => (Reference.makes_classify reference host before).mono ?_
  intro result calls _ hcalls
  cases result <;> exact hcalls

/-- A checkout takes its steps. -/
theorem takes_checkout (hgit : host.git = some git) :
    Takes host (Step.checkout workingCopy reference) (checkout workingCopy reference) := by
  have hexecute (arguments : List String) : Takes host (.command (some workingCopy) arguments)
      (discard (Git.execute workingCopy arguments)) := (Takes.execute hgit).discard
  have hkind (kind : Reference.Kind) : Takes host
      (.must (some workingCopy) [["checkout", reference], creationArguments reference]
        (·.succeeded = true)) (checkoutKind workingCopy reference kind) := by
    unfold checkoutKind
    dsimp only
    split
    · next htag =>
      subst htag
      exact Takes.report.behind fun _ => (hexecute _).choose (by simp [creationArguments])
    · exact Takes.report.behind fun _ => (hexecute _).choose (by simp)
  have hsubmodules : Takes host (.inTurn [.command (some workingCopy) ["submodule", "init"],
      .command (some workingCopy) ["submodule", "update"]]) (updateSubmodules workingCopy) :=
    (hexecute _).bind fun _ => (hexecute _).last
  exact takes_classify.bind fun kind => (hkind kind).bind fun _ => hsubmodules

/-- A merge that is tried is a step that does not fail. -/
theorem takes_tryMerge (hgit : host.git = some git) :
    Takes host (Step.merge workingCopy) (tryMerge workingCopy reference) := by
  intro before
  refine ((ensures_tryMerge hgit).both
    ((madeOf_tryMerge reference).makes_names host before)).mono ?_
  intro result calls _ h
  obtain ⟨htries, hnames⟩ := h
  obtain ⟨flag, rfl, -⟩ := htries.tells
  exact ⟨hnames, htries.once⟩

/-- Reading what git writes as a text is one call, which wrote the text or failed. -/
theorem ensures_executeText_reads (hgit : host.git = some git) (arguments : List String) :
    Ensures (Git.executeText workingCopy arguments) host before fun result calls _ =>
      ∃ call : Call, call.Asks (some workingCopy) [arguments] ∧ calls = [call] ∧
        match result with
        | .ok text => call.Writes text
        | .error _ => call.succeeded = false := by
  refine Ensures.bind (ensures_execute_asks hgit) ?_ ?_
  · intro output calls _ hread
    obtain ⟨call, hasks, rfl, houtput⟩ := hread
    obtain ⟨folder, reply, hfinished, hstatus, rfl⟩ := Command.of_conclude_eq_ok houtput.symm
    exact Ensures.pure ⟨call, hasks, by simp, folder, reply, hfinished, hstatus, rfl⟩
  · intro failure calls _ hread
    obtain ⟨call, hasks, rfl, hfailure⟩ := hread
    rcases (Command.plain arguments).conclude_cases call with ⟨-, output, houtput⟩ | ⟨hfailed, -⟩
    · rw [houtput] at hfailure
      cases hfailure
    · exact ⟨call, hasks, rfl, hfailed⟩

/-- What follows the reading of a text takes the step that goes by the text. -/
theorem takes_reading {α : Type} {arguments : List String} {step : String → Step}
    {next : String → Operation α} (hgit : host.git = some git)
    (rest : ∀ text, Takes host (step text) (next text)) :
    Takes host (.reading workingCopy arguments step)
      (Git.executeText workingCopy arguments >>= next) := by
  intro before
  refine Ensures.bind (ensures_executeText_reads hgit arguments) ?_ ?_
  · intro text calls between hread
    obtain ⟨asked, hasks, rfl, hwrites⟩ := hread
    refine (rest text between).mono fun result later _ hends => ?_
    cases result with
    | ok value => exact ⟨asked, text, later, hasks, hwrites, hends, rfl⟩
    | error failure => exact ⟨asked, hasks, .inr ⟨text, later, hwrites, hends, rfl⟩⟩
  · intro failure calls _ hread
    obtain ⟨asked, hasks, rfl, hfailed⟩ := hread
    exact ⟨asked, hasks, .inl ⟨hfailed, rfl⟩⟩

/-- The hash of `HEAD` is asked for at once, and is what git writes. -/
theorem ensures_hashOf_head (hgit : host.git = some git) :
    Ensures (WorkingCopy.hashOf workingCopy "HEAD") host before fun result calls _ =>
      ∃ call : Call, call.Asks (some workingCopy) [WorkingCopy.hashArguments "HEAD"] ∧
        calls = [call] ∧
        match result with
        | .ok hash => call.Writes hash
        | .error _ => call.succeeded = false :=
  Ensures.step rfl rfl (ensures_executeText_reads hgit _)

namespace Origin

/-- Setting a URL takes the command that sets it. -/
theorem takes_setUrl (hgit : host.git = some git) (url : String) :
    Takes host (.command (some workingCopy) (setUrlArguments url))
      (setUrl workingCopy url password) :=
  (Takes.run hgit).discard

/-- Putting the visible URL back behind an operation restores it behind the step of that. -/
theorem takes_restoringAfter {α : Type} {operation : Operation α} {step : Step}
    (hgit : host.git = some git) (h : Takes host step operation) :
    Takes host (step.restoring workingCopy urls)
      (restoringAfter workingCopy urls password operation) := by
  unfold Step.restoring
  split
  · next hurls =>
    refine fun before => (ensures_restoringAfter hgit hurls (h before)).mono ?_
    intro result calls _ hrestored
    obtain ⟨inner, -, back, hends, hback, rfl⟩ := hrestored
    obtain ⟨hfolder, harguments⟩ := of_runs_setUrlWithin hback
    have hasks : back.Asks (some workingCopy) [setUrlArguments urls.visible] :=
      ⟨hfolder, by simp [harguments]⟩
    cases result <;> exact ⟨inner, back, hends, hasks, rfl⟩
  · next hurls =>
    rwa [restoringAfter_eq (Bool.eq_false_iff.mpr hurls)]

/-- Setting the origin right takes its step. -/
theorem takes_repair (hgit : host.git = some git) (url : String) :
    Takes host (.origin workingCopy url) (repair workingCopy url password) := by
  refine takes_reading hgit fun text => ?_
  split
  · exact Takes.report.behind fun _ => Takes.pure
  · refine Takes.report.behind fun _ => ?_
    rw [← (Step.command _ _).andThen_done]
    exact (takes_setUrl hgit url).bind fun _ => Takes.pure

/-- A command that needs the login takes the step that sets the URL with it, if there is one, and
its own step, behind which the visible URL is put back. -/
theorem takes_runAuthenticated {arguments : List String} (hgit : host.git = some git) :
    Takes host
      (.inTurn [if urls.needAccess then
          .command (some workingCopy) (setUrlArguments urls.authenticated) else .done,
        .restoring workingCopy urls (.command (some workingCopy) arguments)])
      (runAuthenticated workingCopy urls password (.plain arguments)) := by
  have hrun : Takes host (.restoring workingCopy urls (.command (some workingCopy) arguments))
      (restoringAfter workingCopy urls password ((Command.plain arguments).within workingCopy).run) :=
    takes_restoringAfter hgit (Takes.execute hgit)
  unfold runAuthenticated
  split
  · exact (takes_setUrl hgit urls.authenticated).bind fun _ => hrun.last
  · rw [Step.inTurn, List.foldr_cons, Step.done_andThen]
    exact hrun.last

end Origin

open Origin (takes_repair takes_restoringAfter takes_runAuthenticated)

/-- Cloning takes work on files and the clone itself. -/
theorem WorkingCopy.takes_clone {url shown branch : String} (hgit : host.git = some git) :
    Takes host (.andThen .unseen (.command none ["clone", "-b", branch, url, target.text]))
      (clone url shown branch target) := by
  have hrun : Takes host (.command none ["clone", "-b", branch, url, target.text])
      (discard (cloneCommand url shown branch target).run) := (Takes.run hgit).discard
  unfold clone
  split
  · exact Takes.edit.bind fun _ => hrun
  · exact hrun.mono (fun calls hpasses => ⟨[], calls, rfl, hpasses, rfl⟩)
      fun calls hfails => .inr ⟨[], calls, rfl, hfails, rfl⟩

/-- Removing a working copy is work on files. -/
theorem WorkingCopy.takes_remove : Takes host .unseen (remove workingCopy) := by
  have hnone : Makes (remove workingCopy) fun _ => False := makes_remove
  refine fun before => (hnone host before).mono ?_
  intro result calls _ hcalls
  obtain rfl : calls = [] := List.eq_nil_iff_forall_not_mem.mpr hcalls
  cases result <;> exact rfl

namespace Repository

open WorkingCopy (takes_remove)

/-- A fetch over a network takes its step. -/
theorem takes_fetchFrom (hgit : host.git = some git) (hnetwork : source.isNetwork = true) :
    Takes host (.fetch workingCopy (source.urls host.environment))
      (fetchFrom workingCopy source) := by
  cases source with
  | folder path => cases hnetwork
  | remote url =>
    have hurls : (Source.urls host.environment (.remote url)).needAccess = false := by
      simp [Source.urls, RemoteUrls.needAccess]
    rw [Step.fetch_of_not hurls]
    exact Takes.report.behind fun _ => (Takes.execute hgit).discard
  | hosted hosted =>
    exact fun _ => Ensures.step rfl rfl
      (Ensures.step rfl rfl ((takes_runAuthenticated hgit).discard _))

/-- Setting the origin of a network repository right takes its step. -/
theorem takes_repairOrigin (hgit : host.git = some git) (hnetwork : source.isNetwork = true) :
    Takes host (.origin workingCopy (source.urls host.environment).visible)
      (repairOrigin workingCopy source) := by
  cases source with
  | folder path => cases hnetwork
  | remote url => exact (takes_repair hgit url).discard
  | hosted hosted => exact fun _ => Ensures.step rfl rfl ((takes_repair hgit _).discard _)

/-- A download takes its steps. -/
theorem ensures_downloadFrom (hgit : host.git = some git) (source : Source) :
    Ensures (downloadFrom reference target source) host before fun result calls _ =>
      (Step.inTurn (Step.downloading before.files host.environment target reference source)).Ends
        result calls := by
  have hcheckout : Takes host (.checkout target reference)
      (WorkingCopies.checkout target reference) := takes_checkout hgit
  have hnetwork {urls : RemoteUrls} {shown : String} {operation : Operation Unit}
      (h : Takes host (.restoring target urls (.checkout target reference)) operation) :
      Takes host (.inTurn [.unseen, .command none (cloneArguments urls target),
          .restoring target urls (.checkout target reference)])
        (WorkingCopy.clone urls.authenticated shown primaryBranch target >>= fun _ => operation) := by
    have hclone : Takes host (.andThen .unseen (.command none (cloneArguments urls target)))
        (WorkingCopy.clone urls.authenticated shown primaryBranch target) :=
      WorkingCopy.takes_clone hgit
    have hboth := hclone.bind fun _ => h.last
    rwa [Step.andThen_assoc] at hboth
  cases source with
  | folder path =>
    refine Ensures.step rfl rfl (Takes.ensures_bind (Ensures.edit ?_) fun _ => hcheckout.last)
    show (Step.holds (((FileSystem.copyFolder path target).outcome before.files).1 = .ok ())).Ends
      (((FileSystem.copyFolder path target).outcome before.files).1.mapError Failure.fileSystem) []
    cases ((FileSystem.copyFolder path target).outcome before.files).1 with
    | ok _ => exact ⟨rfl, rfl⟩
    | error fault => exact ⟨nofun, rfl⟩
  | remote url =>
    have hplain : Takes host (.restoring target ⟨url, url⟩ (.checkout target reference))
        (WorkingCopies.checkout target reference) := by
      rwa [Step.restoring_of_not (by simp [RemoteUrls.needAccess])]
    refine Ensures.step rfl rfl ?_
    exact @hnetwork ⟨url, url⟩ url _ hplain _
  | hosted hosted =>
    have hrestored : Takes host
        (.restoring target (hosted.urls host.environment) (.checkout target reference))
        (Origin.restoringAfter target (hosted.urls host.environment)
          (hosted.password host.environment) (WorkingCopies.checkout target reference)) :=
      takes_restoringAfter hgit hcheckout
    refine Ensures.step rfl rfl (Ensures.step rfl rfl ?_)
    exact hnetwork hrestored _

/-- An update from a network takes its steps. -/
theorem ensures_update {repository : Repository} (hgit : host.git = some git)
    (hnetwork : repository.source.isNetwork = true)
    (hopen : repository.fetched.isClosed = false) :
    Ensures (update workingCopy reference) host (repository, before) fun result calls _ =>
      (Step.inTurn [.fetch workingCopy (repository.source.urls host.environment),
        .checkout workingCopy reference, .merge workingCopy,
        .checkout workingCopy reference]).Ends result calls := by
  have hcheckout : Takes host (.checkout workingCopy reference)
      (WorkingCopies.checkout workingCopy reference) := takes_checkout hgit
  have hmerge : Takes host (.andThen (.checkout workingCopy reference) (.merge workingCopy))
      (checkoutAndMerge workingCopy reference) :=
    hcheckout.bind fun _ => (takes_tryMerge hgit).discard
  have hrest := hmerge.ofOperation.bind fun _ => hcheckout.ofOperation.last
  rw [Step.andThen_assoc] at hrest
  unfold Ensures
  rw [outcome_update hnetwork]
  exact Takes.ensures_bind (ensures_fetch_of_open hopen (takes_fetchFrom hgit hnetwork before))
    fun _ => hrest

/-- An update from a folder removes the working copy and makes it anew. -/
theorem outcome_update_folder {path : Path} {commit : String} {fetched : Latch} :
    Action.outcome (update workingCopy reference) host
        ({ source := .folder path, commit, fetched }, before) =
      Action.outcome (Task.ofOperation (WorkingCopy.remove workingCopy) >>= fun _ =>
          Task.ofOperation (downloadFrom reference workingCopy (.folder path))) host
        ({ source := .folder path, commit, fetched }, before) :=
  rfl

/-- An update and setting the origin right behind it take their steps. -/
theorem ensures_update_repairOrigin {repository : Repository} (hgit : host.git = some git)
    (hopen : repository.fetched.isClosed = false) :
    Ensures (update workingCopy reference >>= fun _ =>
        Task.ofOperation (repairOrigin workingCopy repository.source)) host (repository, before)
      fun result calls _ => (Step.inTurn (Step.updating host.environment workingCopy reference
        repository.source)).Ends result calls := by
  cases hnetwork : repository.source.isNetwork with
  | true =>
    have hrepair : Takes host (.inTurn [.origin workingCopy
          (repository.source.urls host.environment).visible])
        (Task.ofOperation (repairOrigin workingCopy repository.source)) :=
      (takes_repairOrigin hgit hnetwork).ofOperation.last
    rw [Step.updating_of_network hnetwork, Step.inTurn_append]
    exact Takes.ensures_bind (ensures_update hgit hnetwork hopen) fun _ => hrepair
  | false =>
    obtain ⟨source, commit, latch⟩ := repository
    cases source with
    | hosted hosted => cases hnetwork
    | remote url => cases hnetwork
    | folder path =>
      have hdownload : Takes host (.inTurn [.unseen, .checkout workingCopy reference])
          (Task.ofOperation (downloadFrom reference workingCopy (.folder path))) :=
        Takes.ofOperation (Takes.report.behind fun _ =>
          Takes.edit.bind fun _ => (takes_checkout hgit).last)
      have hupdate : Takes host (.inTurn [.unseen, .unseen, .checkout workingCopy reference])
          (Task.ofOperation (WorkingCopy.remove workingCopy) >>= fun _ =>
            Task.ofOperation (downloadFrom reference workingCopy (.folder path))) :=
        takes_remove.ofOperation.bind fun _ => hdownload
      have hrepair : Takes host .done
          (Task.ofOperation (repairOrigin workingCopy (.folder path))) := Takes.pure.ofOperation
      -- a folder is no origin, so nothing is done behind the update
      rw [← Step.andThen_done (Step.inTurn _)]
      refine Takes.ensures_bind ?_ fun _ => hrepair
      unfold Ensures
      rw [outcome_update_folder]
      exact hupdate _

end Repository

end WorkingCopies
