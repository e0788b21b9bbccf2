import WorkingCopies.Proofs.Git.Files
import WorkingCopies.Proofs.Repository.Commands
import WorkingCopies.Proofs.Repository.Source

/-!
# Requests that fetch first

Two requests fetch before they do anything else: giving a file and bringing a working copy up to
date. Where the latch is open the fetch is the first thing that is done, and where it fails nothing
follows it: its failure is the answer. Where the latch is closed there is no fetch.
-/

namespace WorkingCopies

open Git (Call Command)

/-- Whether a source is reached over a network. -/
def Source.isNetwork : Source → Bool
  | .folder _ => false
  | _ => true

/-- The URLs of a source. A URL that git understands as it stands is both of them. -/
def Source.urls (environment : Environment) : Source → RemoteUrls
  | .hosted repository => repository.urls environment
  | .remote url => ⟨url, url⟩
  | .folder _ => default

/-- The password of a source. -/
def Source.password (environment : Environment) : Source → String
  | .hosted repository => repository.password environment
  | _ => ""

namespace Repository

open Origin (GuardedRun ensures_runAuthenticated)
open WorkingCopy (makes_showFile showFile)

variable {host : Host} {git : Git} {hosted : Hosted} {workingCopy : Path}

/-- The arguments that bring in what the remote has. -/
def fetchArguments : List String := ["fetch", "--tags"]

/-- The command that brings in what the remote has. -/
abbrev fetchCommand : Command := .plain fetchArguments

/-- The calls of a fetch, and what comes of it: with a login the fetch is guarded, and without one
it is the only call. -/
def FetchStep (urls : RemoteUrls) (password : String) (workingCopy : Path)
    (result : Except Failure Unit) (calls : List Call) : Prop :=
  ∃ output : Except Failure Bytes, result = output.map (fun _ => ()) ∧
    if urls.needAccess then GuardedRun workingCopy urls password fetchCommand output calls
    else ∃ run : Call, run.Runs (fetchCommand.within workingCopy) ∧ calls = [run] ∧
      output = (fetchCommand.within workingCopy).conclude run.outcome

/-- Fetching over a network is one such step. -/
theorem ensures_fetchFrom {source : Source} {workspace : Workspace} (hgit : host.git = some git)
    (hnetwork : source.isNetwork = true) :
    Ensures (fetchFrom workingCopy source) host workspace fun result calls _ =>
      FetchStep (source.urls host.environment) (source.password host.environment) workingCopy
        result calls := by
  have hplain {urls : RemoteUrls} {password : String} {operation : Operation Bytes}
      {workspace : Workspace} (hurls : urls.needAccess = false)
      (hrun : Ensures operation host workspace fun result calls _ =>
        ∃ run : Call, run.Runs (fetchCommand.within workingCopy) ∧ calls = [run] ∧
          result = (fetchCommand.within workingCopy).conclude run.outcome) :
      Ensures (discard operation) host workspace fun result calls _ =>
        FetchStep urls password workingCopy result calls := by
    refine Ensures.discard (hrun.mono fun result calls _ hrun => ⟨result, rfl, ?_⟩)
    rwa [hurls, if_neg Bool.false_ne_true]
  cases source with
  | folder path => cases hnetwork
  | remote url =>
    have hurls : (Source.urls host.environment (.remote url)).needAccess = false := by
      simp [Source.urls, RemoteUrls.needAccess]
    exact Ensures.step rfl rfl (hplain hurls (ensures_run_of_git hgit))
  | hosted hosted =>
    refine Ensures.step rfl rfl (Ensures.step rfl rfl ?_)
    cases hurls : (hosted.urls host.environment).needAccess with
    | true =>
      refine Ensures.discard ((ensures_runAuthenticated hgit hurls).mono ?_)
      intro result calls _ hguarded
      exact ⟨result, rfl, (if_pos hurls).mpr hguarded⟩
    | false =>
      refine hplain hurls ?_
      rw [Origin.runAuthenticated_eq hurls]
      exact ensures_run_of_git hgit

/-- Whether a call has brought in what the remote has. -/
def hasFetched (call : Call) : Bool := call.arguments = fetchArguments && call.succeeded

/-- A call that names other commands has fetched nothing. -/
theorem hasFetched_eq_false {call : Call} (h : call.arguments.head? ≠ some "fetch") :
    hasFetched call = false := by
  have hother : call.arguments ≠ fetchArguments := Call.arguments_ne_of_head h rfl
  simp [hasFetched, hother]

/-- A fetch has brought in what the remote has if it succeeded, and otherwise nothing has. -/
theorem FetchStep.countP_hasFetched {urls : RemoteUrls} {password : String}
    {result : Except Failure Unit} {calls : List Call}
    (h : FetchStep urls password workingCopy result calls) :
    calls.countP hasFetched = result.isOk.toNat := by
  have hset {set : Call} {url : String}
      (hset : set.Runs (Origin.setUrlWithin workingCopy url password)) : hasFetched set = false := by
    refine hasFetched_eq_false ?_
    rw [(Origin.of_runs_setUrlWithin hset).2]
    simp [Origin.setUrlArguments]
  have hrun {run : Call} (hrun : run.Runs (fetchCommand.within workingCopy)) :
      hasFetched run =
        (((fetchCommand.within workingCopy).conclude run.outcome).map fun _ => ()).isOk := by
    have harguments : run.arguments = fetchArguments := by
      rw [hrun.arguments, Command.map_text_plain_within]
    rw [hasFetched, harguments, ← (fetchCommand.within workingCopy).isSome_toOption_conclude run]
    cases (fetchCommand.within workingCopy).conclude run.outcome <;> rfl
  obtain ⟨output, rfl, hstep⟩ := h
  split at hstep
  · obtain ⟨set, hfirst, ⟨hfailed, rfl, rfl⟩ | ⟨-, run, back, hfetch, hlast, rfl, rfl⟩⟩ := hstep
    · obtain ⟨failure, hfailure⟩ :
          ∃ failure, (Origin.setUrlWithin workingCopy urls.authenticated password).conclude
            set.outcome = .error failure := Command.exists_failure hfailed
      rw [hfailure]
      simp [hset hfirst]
      rfl
    · simp only [List.countP_cons, List.countP_nil, hset hfirst, hset hlast, ← hrun hfetch]
      cases hasFetched run <;> rfl
  · obtain ⟨run, hfetch, rfl, rfl⟩ := hstep
    simp only [List.countP_cons, List.countP_nil, ← hrun hfetch]
    cases hasFetched run <;> rfl

/-- A fetch succeeds exactly if one of its calls has fetched. -/
theorem FetchStep.eq_ok_iff {urls : RemoteUrls} {password : String}
    {result : Except Failure Unit} {calls : List Call}
    (h : FetchStep urls password workingCopy result calls) :
    result = .ok () ↔ ∃ call ∈ calls, hasFetched call = true := by
  rw [← List.countP_pos_iff, h.countP_hasFetched]
  cases result with
  | ok _ => exact iff_of_true rfl Nat.one_pos
  | error failure => exact iff_of_false (by simp) (by simp [Except.isOk, Except.toBool])

/-- How a request goes that fetches at once: its first calls, from the files that it finds, are those
of the fetch, and the others come behind it. -/
structure FetchesAtOnce (urls : RemoteUrls) (password : String) (workingCopy : Path)
    (files : FileSystem) (result : Except Failure Unit) (first rest : List Call)
    (answer : Except Failure Answer) (after : Repository × Workspace) : Prop where
  step : FetchStep urls password workingCopy result first
  /-- It succeeds exactly if git has fetched, and closes the latch then. -/
  succeeds : result = .ok () ↔ ∃ call ∈ first, hasFetched call = true
  latch : after.1.fetched.isClosed = result.isOk
  commands : ∀ call ∈ rest, call.Names workingCopy ("show" :: mergeCommands)
  /-- If it fails there is nothing behind it: no call, and no file but those that its calls left. -/
  fails : ∃ between, files.Carried first between ∧ ∀ failure, result = .error failure →
    rest = [] ∧ answer = .error failure ∧ after.2.files = between

variable {repository : Repository} {workspace : Workspace}

/-- With the latch open, a task that fetches before it does anything else fetches at once. -/
theorem ensures_fetch_then_of_open {rest : Task Unit} (hgit : host.git = some git)
    (hnetwork : repository.source.isNetwork = true)
    (hopen : repository.fetched.isClosed = false)
    (hrest : Makes rest fun call => call.Names workingCopy ("show" :: mergeCommands))
    (hkeeps : Keeps fetched rest) :
    Ensures ((fetch workingCopy >>= fun _ => rest) >>= fun _ => pure Answer.done) host
      (repository, workspace) fun answer calls after =>
        ∃ result first others, calls = first ++ others ∧
          FetchesAtOnce (repository.source.urls host.environment)
            (repository.source.password host.environment) workingCopy workspace.files result first
            others answer after := by
  have hfetch : Ensures (fetch workingCopy) host (repository, workspace)
      fun result calls after =>
        FetchStep (repository.source.urls host.environment)
            (repository.source.password host.environment) workingCopy result calls ∧
          workspace.files.Carried calls after.2.files ∧
          after.1.fetched.isClosed = result.isOk := by
    refine ensures_fetch_of_open hopen (((ensures_fetchFrom hgit hnetwork).both
      ((madeOf_fetchFrom _).ensures_carried host workspace)).mono ?_)
    intro result calls after hstep
    exact ⟨hstep.1, hstep.2, rfl⟩
  rw [bind_assoc]
  refine Ensures.bind hfetch ?_ ?_
  · intro _ first fetched hfetched
    obtain ⟨hstep, hcarried, hlatch⟩ := hfetched
    have hothers {answer : Except Failure Answer} {others : List Call}
        {after : Repository × Workspace} (hkept : after.1.fetched = fetched.1.fetched)
        (hothers : ∀ call ∈ others, call.Names workingCopy ("show" :: mergeCommands)) :
        FetchesAtOnce (repository.source.urls host.environment)
          (repository.source.password host.environment) workingCopy workspace.files (.ok ()) first
          others answer after :=
      ⟨hstep, hstep.eq_ok_iff, by rw [hkept, hlatch], hothers, _, hcarried, by simp⟩
    have hrest : Ensures rest host fetched fun _ others after =>
        after.1.fetched = fetched.1.fetched ∧
          ∀ call ∈ others, call.Names workingCopy ("show" :: mergeCommands) :=
      (hrest host fetched).and_after (hkeeps host fetched)
    refine Ensures.bind hrest ?_ ?_
    · intro _ others after hafter
      exact Ensures.pure ⟨.ok (), first, others, by simp, hothers hafter.1 hafter.2⟩
    · intro failure others after hafter
      exact ⟨.ok (), first, others, rfl, hothers hafter.1 hafter.2⟩
  · intro failure first after hfetched
    obtain ⟨hstep, hcarried, hlatch⟩ := hfetched
    refine ⟨.error failure, first, [], by simp, hstep, hstep.eq_ok_iff, hlatch, by simp, _,
      hcarried, ?_⟩
    intro _ hsame
    cases hsame
    exact ⟨rfl, rfl, rfl⟩

/-- With the latch closed, such a task does only what comes behind the fetch. -/
theorem ensures_fetch_then_of_closed {rest : Task Unit}
    (hclosed : repository.fetched.isClosed = true)
    (hrest : Makes rest fun call => call.Names workingCopy ("show" :: mergeCommands))
    (hkeeps : Keeps fetched rest) :
    Ensures ((fetch workingCopy >>= fun _ => rest) >>= fun _ => pure Answer.done) host
      (repository, workspace) fun _ calls after =>
        (∀ call ∈ calls, call.Names workingCopy ("show" :: mergeCommands)) ∧
          after.1.fetched = repository.fetched := by
  have hfetch : Ensures (fetch workingCopy) host (repository, workspace) fun _ calls after =>
      calls = [] ∧ after.1.fetched = repository.fetched :=
    ensures_fetch_of_closed hclosed ⟨rfl, rfl⟩
  rw [bind_assoc]
  refine Ensures.bind hfetch ?_ ?_
  · intro _ _ fetched hfetched
    obtain ⟨rfl, hlatch⟩ := hfetched
    have hrest : Ensures rest host fetched fun _ others after =>
        after.1.fetched = fetched.1.fetched ∧
          ∀ call ∈ others, call.Names workingCopy ("show" :: mergeCommands) :=
      (hrest host fetched).and_after (hkeeps host fetched)
    refine Ensures.bind hrest ?_ ?_
    · intro _ others after hafter
      exact Ensures.pure ⟨by simpa using hafter.2, hafter.1.trans hlatch⟩
    · intro _ others after hafter
      exact ⟨hafter.2, hafter.1.trans hlatch⟩
  · intro _ _ after hfetched
    obtain ⟨rfl, hlatch⟩ := hfetched
    exact ⟨by simp, hlatch⟩

/-- A request that fetches from a network is a task that fetches before it does anything else. -/
theorem exists_fetch_then {request : Request} (hnetwork : repository.source.isNetwork = true)
    (hrequest : request.fetchedInto? = some workingCopy) :
    ∃ rest : Task Unit, (Makes rest fun call => call.Names workingCopy ("show" :: mergeCommands)) ∧
      Keeps fetched rest ∧
      Action.outcome request.serve host (repository, workspace) =
        Action.outcome ((fetch workingCopy >>= fun _ => rest) >>= fun _ => pure Answer.done) host
          (repository, workspace) := by
  obtain ⟨source, commit, latch⟩ := repository
  cases request with
  | fetchFile path file folder =>
    cases hrequest
    refine ⟨get >>= fun state =>
      Task.ofOperation (showFile workingCopy state.1.commit file folder), ?_, ?_, ?_⟩
    · exact Makes.bind (Makes.silent fun _ _ => rfl) fun state =>
        Makes.ofOperation ((makes_showFile _ _ _).widen (by decide))
    · exact .bind_get fun _ => .ofOperation _
    · cases source with
      | folder path => cases hnetwork
      | hosted hosted => rfl
      | remote url => rfl
  | update path reference =>
    cases hrequest
    refine ⟨Task.ofOperation (checkoutAndMerge workingCopy reference) >>= fun _ =>
      Task.ofOperation (checkout workingCopy reference), ?_, ?_, ?_⟩
    · exact Makes.bind (Makes.ofOperation ((makes_checkoutAndMerge reference).widen (by decide)))
        fun _ => Makes.ofOperation ((makes_checkout reference).widen (by decide))
    · exact .bind (.ofOperation _) fun _ => .ofOperation _
    · cases source with
      | folder path => cases hnetwork
      | hosted hosted => rfl
      | remote url => rfl
  | _ => cases hrequest

/-- With the latch open, a request that fetches does so at once. -/
theorem ensures_serve_of_open {request : Request} (hgit : host.git = some git)
    (hnetwork : repository.source.isNetwork = true)
    (hrequest : request.fetchedInto? = some workingCopy)
    (hopen : repository.fetched.isClosed = false) :
    Ensures request.serve host (repository, workspace) fun answer calls after =>
      ∃ result first rest, calls = first ++ rest ∧
        FetchesAtOnce (repository.source.urls host.environment)
          (repository.source.password host.environment) workingCopy workspace.files result first
          rest answer after := by
  obtain ⟨rest, hrest, hkeeps, houtcome⟩ := exists_fetch_then hnetwork hrequest
  unfold Ensures
  rw [houtcome]
  exact ensures_fetch_then_of_open hgit hnetwork hopen hrest hkeeps

/-- With the latch closed, it leaves the fetch out. -/
theorem ensures_serve_of_closed {request : Request}
    (hnetwork : repository.source.isNetwork = true)
    (hrequest : request.fetchedInto? = some workingCopy)
    (hclosed : repository.fetched.isClosed = true) :
    Ensures request.serve host (repository, workspace) fun _ calls after =>
      (∀ call ∈ calls, call.Names workingCopy ("show" :: mergeCommands)) ∧
        after.1.fetched = repository.fetched := by
  obtain ⟨rest, hrest, hkeeps, houtcome⟩ := exists_fetch_then hnetwork hrequest
  unfold Ensures
  rw [houtcome]
  exact ensures_fetch_then_of_closed hclosed hrest hkeeps

/-- The calls of a request that fetches first, and its answer: the fetch, unless the latch keeps it
from running, and behind a fetch that did not fail some commands of the working copy. -/
def FetchesFirst (urls : RemoteUrls) (password : String) (workingCopy : Path)
    (answer : Except Failure Answer) (calls : List Call) : Prop :=
  ∃ result first rest, calls = first ++ rest ∧
    ((result = .ok () ∧ first = []) ∨ FetchStep urls password workingCopy result first) ∧
    (∀ call ∈ rest, call.Names workingCopy ("show" :: mergeCommands)) ∧
    ∀ failure, result = .error failure → rest = [] ∧ answer = .error failure

/-- A request of a hosted repository that fetches does so first. -/
theorem ensures_serve_fetchesFirst {request : Request} (hgit : host.git = some git)
    (hsource : repository.source = .hosted hosted)
    (hrequest : request.fetchedInto? = some workingCopy) :
    Ensures request.serve host (repository, workspace) fun answer calls _ =>
      FetchesFirst (hosted.urls host.environment) (hosted.password host.environment) workingCopy
        answer calls := by
  have hnetwork : repository.source.isNetwork = true := by
    rw [hsource]
    rfl
  cases hclosed : repository.fetched.isClosed with
  | true =>
    refine (ensures_serve_of_closed hnetwork hrequest hclosed).mono ?_
    intro answer calls _ hcalls
    exact ⟨.ok (), [], calls, rfl, .inl ⟨rfl, rfl⟩, hcalls.1, by simp⟩
  | false =>
    refine (ensures_serve_of_open hgit hnetwork hrequest hclosed).mono ?_
    intro answer calls _ hfetches
    obtain ⟨result, first, rest, hcalls, hfetch⟩ := hfetches
    have hstep := hfetch.step
    rw [hsource] at hstep
    obtain ⟨between, -, hfails⟩ := hfetch.fails
    exact ⟨result, first, rest, hcalls, .inr hstep, hfetch.commands, fun failure hfailure =>
      ⟨(hfails failure hfailure).1, (hfails failure hfailure).2.1⟩⟩

end Repository

end WorkingCopies
