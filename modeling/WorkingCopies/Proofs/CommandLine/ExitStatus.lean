import WorkingCopies.Proofs.CommandLine.Work
import WorkingCopies.Proofs.Repository.Steps

/-!
# What the exit status tells

A command line that downloads or updates exits with zero and prints a hash exactly if all its steps
were taken and the hash of `HEAD` was read behind them. Where a step fails nothing is done behind it,
nothing is printed, and the status is one.
-/

namespace WorkingCopies

open Git (Call Command Step)
open Origin (setUrlArguments)
open Repository (fetchArguments)
open WorkingCopy (hasChanges hashArguments hashOf)

variable {host : Host} {git : Git} {before : Workspace} {place : Path}

namespace Git

/-- Whether a call succeeded and wrote nothing. -/
def Call.WritesNothing (call : Call) : Prop :=
  ∃ folder reply, call.outcome = .finished folder reply ∧ reply.status = 0 ∧ reply.output = []

/-- A call that wrote nothing with success was a success. -/
theorem Call.WritesNothing.succeeded {call : Call} (h : call.WritesNothing) :
    call.succeeded = true := by
  obtain ⟨folder, reply, houtcome, hstatus, -⟩ := h
  simp [Call.succeeded, houtcome, hstatus]

/-- The working copy has no changes. -/
def Step.unchanged (workingCopy : Path) : Step :=
  must (some workingCopy) [["diff", "--name-only"]] Call.WritesNothing

end Git

/-- A step that a look for changes takes passes where it finds none, and else fails. -/
def Git.Step.FindsNone {ε : Type} (step : Step) (result : Except ε Bool) (calls : List Call) :
    Prop :=
  match result with
  | .ok false => step.passes calls
  | _ => step.fails calls

/-- Looking for changes finds that there are none, or fails as a step. -/
theorem WorkingCopy.ensures_hasChanges (hgit : host.git = some git) :
    Ensures (hasChanges place) host before fun result calls _ =>
      (Step.unchanged place).FindsNone result calls := by
  refine Ensures.bind (ensures_execute_asks hgit) ?_ ?_
  · intro output calls _ hasked
    obtain ⟨call, hasks, rfl, houtput⟩ := hasked
    obtain ⟨folder, reply, hfinished, hstatus, rfl⟩ := Command.of_conclude_eq_ok houtput.symm
    refine Ensures.pure ?_
    by_cases hnothing : reply.output = []
    · rw [hnothing]
      exact ⟨call, hasks, ⟨folder, reply, hfinished, hstatus, hnothing⟩, rfl⟩
    · rw [List.isEmpty_eq_false_iff.mpr hnothing]
      refine ⟨call, hasks, ?_, rfl⟩
      rintro ⟨_, other, hother, -, hnone⟩
      rw [hfinished] at hother
      cases hother
      exact hnothing hnone
  · intro failure calls _ hasked
    obtain ⟨call, hasks, rfl, hfailure⟩ := hasked
    refine ⟨call, hasks, ?_, rfl⟩
    rintro ⟨_, reply, hfinished, hstatus, -⟩
    rw [hfinished, Command.conclude, if_pos hstatus] at hfailure
    cases hfailure

namespace CommandLine

/-- How a command line ends that goes by some steps and prints a line with the hash of `HEAD`. -/
inductive EndsBy (steps : List Step) (place : Path) (line : String → String) :
    (status : Nat) → (output : String) → (calls : List Call) → Prop where
  /-- All steps are taken, and the hash that is printed is read behind them. -/
  | printed {earlier : List Call} {asked : Call} {hash : String}
      (hsteps : (Step.inTurn steps).passes earlier)
      (hasked : asked.Asks (some place) [hashArguments "HEAD"]) (hhash : asked.Writes hash) :
      EndsBy steps place line 0 (line hash) (earlier ++ [asked])
  /-- A step fails. -/
  | stopped {calls : List Call} (hsteps : (Step.inTurn steps).fails calls) :
      EndsBy steps place line 1 "" calls
  /-- All steps are taken, and the hash cannot be read. -/
  | hashless {earlier : List Call} {asked : Call} (hsteps : (Step.inTurn steps).passes earlier)
      (hasked : asked.Asks (some place) [hashArguments "HEAD"])
      (hfailed : asked.succeeded = false) : EndsBy steps place line 1 "" (earlier ++ [asked])

namespace EndsBy

variable {step : Step} {steps : List Step} {line : String → String} {status : Nat}
  {output : String} {first calls : List Call}

/-- A step that is taken first comes before all others. -/
theorem cons (hfirst : step.passes first) (h : EndsBy steps place line status output calls) :
    EndsBy (step :: steps) place line status output (first ++ calls) := by
  cases h with
  | printed hsteps hasked hhash =>
    rw [← List.append_assoc]
    exact .printed ⟨_, _, hfirst, hsteps, rfl⟩ hasked hhash
  | stopped hsteps => exact .stopped (.inr ⟨_, _, hfirst, hsteps, rfl⟩)
  | hashless hsteps hasked hfailed =>
    rw [← List.append_assoc]
    exact .hashless ⟨_, _, hfirst, hsteps, rfl⟩ hasked hfailed

/-- Where the status is zero, the calls that failed are those that the steps spare. -/
theorem spared {spared : Call → Prop} (h : EndsBy steps place line status output calls)
    (hsteps : (Step.inTurn steps).Spares spared) (call : Call) (hcall : call ∈ calls)
    (hfailed : call.succeeded = false) : spared call ∨ status = 1 ∧ output = "" := by
  cases h with
  | stopped _ => exact .inr ⟨rfl, rfl⟩
  | hashless _ _ _ => exact .inr ⟨rfl, rfl⟩
  | printed hpasses _ hhash =>
    rcases List.mem_append.mp hcall with hcall | hcall
    · exact .inl (hsteps _ hpasses call hcall hfailed)
    · obtain rfl := List.mem_singleton.mp hcall
      rw [hhash.succeeded] at hfailed
      cases hfailed

end EndsBy

/-- What a result of some work and its calls say of the exit status and the output. -/
def Exits (post : Nat → String → List Call → Prop) (result : Except Problem (List String))
    (calls : List Call) : Prop :=
  match result with
  | .ok lines => post 0 (unlines lines) calls
  | .error _ => post 1 "" calls

/-- What follows for the exit status, the output and the calls follows for the result. -/
theorem Exits.mono {post other : Nat → String → List Call → Prop}
    {result : Except Problem (List String)} {calls more : List Call} (h : Exits post result calls)
    (hpost : ∀ status output, post status output calls → other status output more) :
    Exits other result more := by
  cases result with
  | ok lines => exact hpost _ _ h
  | error problem => exact hpost _ _ h

/-- One line is printed with its end. -/
theorem unlines_singleton (line : String) : unlines [line] = line ++ "\n" := by
  simp [unlines]

/-- How a request exits is read off the result of its work. -/
theorem run_eq (request : Request) (host : Host) (before : Workspace) :
    let ended := (request.command.run request.options
      (Colour.ofSetting request.options.colour host.environment)).outcome host before
    (request.run host before).workspace = ended.2 ∧
      ((request.run host before).status, (request.run host before).output) =
        match ended.1 with
        | .ok lines => (0, unlines lines)
        | .error _ => (1, "") := by
  unfold Request.run Work.outcome
  dsimp only
  generalize ((request.command.run request.options
    (Colour.ofSetting request.options.colour host.environment)).run host).run.run before = ended
  rcases ended with ⟨problem | lines, after⟩
  · exact ⟨rfl, rfl⟩
  · exact ⟨rfl, rfl⟩

/-- A request exits as its work says. -/
theorem exits_run {request : Request} {post : Nat → String → List Call → Prop}
    (h : Work.Ensures (request.command.run request.options
      (Colour.ofSetting request.options.colour host.environment)) host before
      fun result calls _ => Exits post result calls) :
    post (request.run host before).status (request.run host before).output
      ((request.run host before).workspace.callsSince before) := by
  obtain ⟨calls, hcalls, hexits⟩ := h
  obtain ⟨hworkspace, hended⟩ := run_eq request host before
  rw [hworkspace, Workspace.callsSince_eq hcalls]
  unfold Exits at hexits
  split at hexits
  · next lines hresult =>
    rw [hresult] at hended
    obtain ⟨hstatus, houtput⟩ := Prod.mk.inj hended
    rwa [hstatus, houtput]
  · next problem hresult =>
    rw [hresult] at hended
    obtain ⟨hstatus, houtput⟩ := Prod.mk.inj hended
    rwa [hstatus, houtput]

/-- A request whose work fails exits with one and prints nothing. -/
theorem exits_run_of_fails {request : Request}
    (h : Work.Fails (request.command.run request.options
      (Colour.ofSetting request.options.colour host.environment)) host) :
    (request.run host before).status = 1 ∧ (request.run host before).output = "" := by
  obtain ⟨problem, hproblem⟩ := h before
  obtain ⟨-, hended⟩ := run_eq request host before
  rw [hproblem] at hended
  exact Prod.mk.inj hended

section Steps

variable {options : Options} {colour : Colour} {target : Target} {reference : String}
  {repository : Repository} {steps : List Step}

/-- Work that takes some steps with a repository, reads the hash of `HEAD` and prints a line with it
exits so. -/
theorem ensures_printHash {task : Task Unit} (hgit : host.git = some git) (place : Path)
    (line : String → String)
    (h : WorkingCopies.Ensures task host (repository, before) fun result calls _ =>
      (Step.inTurn steps).Ends result calls) :
    Work.Ensures
      (Work.ofTask repository (task >>= fun _ => Task.ofOperation (hashOf place "HEAD")) >>=
        fun result => pure [line result.1]) host before
      fun result calls _ => Exits (EndsBy steps place (line · ++ "\n")) result calls := by
  have htask : WorkingCopies.Ensures (task >>= fun _ => Task.ofOperation (hashOf place "HEAD"))
      host (repository, before) fun result calls _ => Exits (EndsBy steps place (line · ++ "\n"))
        ((result.map fun hash => [line hash]).mapError .failed) calls := by
    refine Ensures.bind h ?_ fun _ _ _ hfails => .stopped hfails
    intro _ earlier between hpasses
    refine Ensures.ofOperation ((ensures_hashOf_head hgit).mono ?_)
    intro result calls _ hread
    obtain ⟨asked, hasked, rfl, hhash⟩ := hread
    cases result with
    | ok hash =>
      show EndsBy steps place (line · ++ "\n") 0 (unlines [line hash]) _
      rw [unlines_singleton]
      exact .printed hpasses hasked hhash
    | error failure => exact .hashless hpasses hasked hhash
  have hwork : Work.Ensures (Work.ofTask repository
      (task >>= fun _ => Task.ofOperation (hashOf place "HEAD"))) host before
      fun result calls _ => Exits (EndsBy steps place (line · ++ "\n"))
        (result.map fun found => [line found.1]) calls := by
    refine .ofTask (htask.mono fun result calls after hends => ?_)
    cases result with
    | ok hash => exact hends
    | error failure => exact hends
  refine .bind hwork ?_ fun _ _ _ hends => hends
  intro found calls _ hends
  exact .pure (by rwa [List.append_nil])

/-- The steps of an update with a declared repository, where some files are found. Without one there
is no step to be taken. -/
def updateSteps (files : FileSystem) (environment : Environment) (place : Path)
    (reference : String) : Except Problem Repository → List Step
  | .error _ => [.holds False]
  | .ok repository => (if files.leadsAnywhere place then [.unchanged place] else []) ++
    Step.updating environment place reference repository.source

/-- The steps of a download with a declared repository, where some files are found. -/
def downloadSteps (files : FileSystem) (environment : Environment) (place : Path)
    (reference : String) : Except Problem Repository → List Step
  | .error _ => [.holds False]
  | .ok repository => .holds (files.leadsAnywhere place = false) ::
    Step.downloading files environment place reference repository.source

/-- A call that may fail without harm in the steps with a declared repository. -/
def IsHarmless (environment : Environment) (place : Path) (declared : Except Problem Repository)
    (call : Call) : Prop :=
  ∃ repository, declared = .ok repository ∧
    Step.IsHarmless place (repository.source.urls environment) call

section Spares

variable {files : FileSystem} {environment : Environment} {declared : Except Problem Repository}

/-- In an update that succeeds only harmless calls fail. -/
theorem spares_updateSteps : (Step.inTurn (updateSteps files environment place reference
    declared)).Spares (IsHarmless environment place declared) := by
  cases declared with
  | error problem => exact .andThen .holds .done
  | ok repository =>
    have hguard : (Step.inTurn (if files.leadsAnywhere place then [.unchanged place] else
        [])).Spares (IsHarmless environment place (.ok repository)) := by
      split
      · exact .andThen (.must fun call hnothing => hnothing.succeeded) .done
      · exact .done
    rw [updateSteps, Step.inTurn_append]
    exact .andThen hguard (Step.spares_updating.mono fun call h => ⟨repository, rfl, h⟩)

/-- In a download that succeeds only harmless calls fail. -/
theorem spares_downloadSteps : (Step.inTurn (downloadSteps files environment place reference
    declared)).Spares (IsHarmless environment place declared) := by
  cases declared with
  | error problem => exact .andThen .holds .done
  | ok repository =>
    exact .andThen .holds (Step.spares_downloading.mono fun call h => ⟨repository, rfl, h⟩)

end Spares

/-- Refusing changes takes the step that there are none. -/
theorem ensures_refuseChanges (hgit : host.git = some git) :
    Work.Ensures (Command.refuseChanges place) host before fun result calls _ =>
      (Step.unchanged place).Ends result calls := by
  have hguard : Work.Ensures (Work.ofOperation .failed (hasChanges place)) host before
      fun result calls _ => (Step.unchanged place).FindsNone result calls := by
    refine .ofOperation ((WorkingCopy.ensures_hasChanges hgit).mono fun result calls _ h => ?_)
    rcases result with _ | _ | _ <;> exact h
  refine .bind hguard ?_ fun _ _ _ hfails => hfails
  intro changed calls _ hguarded
  cases changed with
  | true => exact .throw (by rwa [List.append_nil])
  | false => exact .pure (by rwa [List.append_nil])

/-- An update that nothing stands against exits as its steps go. -/
theorem ensures_proceedUpdate (hgit : host.git = some git)
    (hfetched : repository.fetched.isClosed = false) :
    Work.Ensures (Command.proceedUpdate colour target reference repository) host before
      fun result calls _ => Exits (EndsBy (Step.updating host.environment target.place reference
          repository.source) target.place
        (Command.updateLine colour target reference · ++ "\n")) result calls := by
  have hsteps := ensures_printHash hgit target.place (Command.updateLine colour target reference)
    (@Repository.ensures_update_repairOrigin host git before target.place reference
      { repository with commit := reference } hgit hfetched)
  rwa [bind_assoc] at hsteps

/-- An update exits as its steps go. -/
theorem ensures_runUpdate (hgit : host.git = some git) :
    Work.Ensures (Command.runUpdate options colour target reference) host before
      fun result calls _ => Exits (EndsBy (updateSteps before.files host.environment target.place
          reference ((Work.repository options target.repository).outcome host before).1)
        target.place (Command.updateLine colour target reference · ++ "\n")) result calls := by
  rw [Command.runUpdate_eq]
  refine .bind (Work.ensures_repository options target.repository) ?_ ?_
  · intro repository calls between hbetween
    -- the repository is fresh, so its latch lets the update fetch
    obtain ⟨hdeclared, rfl, hfiles, hfetched⟩ := hbetween
    rw [← hdeclared]
    refine .bind_get ?_
    simp only [updateSteps, List.nil_append]
    rw [← hfiles]
    split
    · refine .bind (ensures_refuseChanges hgit) ?_ fun _ _ _ hfails => .stopped (.inl hfails)
      intro _ first after hguarded
      exact (ensures_proceedUpdate hgit (hfetched repository rfl)).mono
        fun result calls _ hexits => hexits.mono fun _ _ hends => hends.cons hguarded
    · exact ensures_proceedUpdate hgit (hfetched repository rfl)
  · intro problem calls after hafter
    obtain ⟨hdeclared, rfl, -, -⟩ := hafter
    rw [← hdeclared]
    exact .stopped (.inl ⟨id, rfl⟩)

/-- A download exits as its steps go. -/
theorem ensures_runDownload (hgit : host.git = some git) :
    let line (hash : String) := colour.choose "📥" "[OK]" ++ " " ++ target.repository ++
      " is at " ++ reference ++ " (" ++ hash ++ ")"
    Work.Ensures (Command.runDownload options colour target reference) host before
      fun result calls _ => Exits (EndsBy (downloadSteps before.files host.environment target.place
          reference ((Work.repository options target.repository).outcome host before).1)
        target.place (line · ++ "\n")) result calls := by
  intro line
  unfold Command.runDownload
  refine .bind_get ?_
  dsimp only
  split
  · next hexists =>
    refine .bind_throw (.stopped ?_)
    cases ((Work.repository options target.repository).outcome host before).1 with
    | error problem => exact .inl ⟨id, rfl⟩
    | ok repository => exact .inl ⟨by simp [hexists], rfl⟩
  · next hexists =>
    refine .bind (Work.ensures_repository options target.repository) ?_ ?_
    · intro repository calls between hbetween
      obtain ⟨hdeclared, rfl, hfiles, -⟩ := hbetween
      rw [← hdeclared]
      have hdownload : Ensures (Repository.download reference target.place) host
          ({ repository with commit := reference }, between) fun result calls _ =>
            (Step.inTurn (Step.downloading between.files host.environment target.place reference
              repository.source)).Ends result calls :=
        Ensures.step rfl rfl (Ensures.ofOperation (Repository.ensures_downloadFrom hgit _))
      refine (ensures_printHash hgit target.place line hdownload).mono ?_
      intro result calls _ hexits
      rw [hfiles] at hexits
      exact hexits.mono fun _ _ hends => hends.cons ⟨by simp [hexists], rfl⟩
    · intro problem calls after hafter
      obtain ⟨hdeclared, rfl, -, -⟩ := hafter
      rw [← hdeclared]
      exact .stopped (.inl ⟨id, rfl⟩)

end Steps

section Missing

variable {options : Options} {colour : Colour} {target : Target} {reference : String}

/-- Finding the hash of a reference fails where git is not installed. -/
theorem fails_hashOf (hgit : host.git = none) :
    Action.Fails (hashOf place reference) host :=
  .behind fun _ => .first (fails_run hgit _)

/-- An update fails where git is not installed. -/
theorem fails_runUpdate (hgit : host.git = none) :
    Work.Fails (Command.runUpdate options colour target reference) host := by
  have hrest (repository : Repository) :
      Work.Fails (Command.proceedUpdate colour target reference repository) host :=
    .first (.ofTask (.behind fun _ => .behind fun _ => .ofOperation (fails_hashOf hgit)))
  rw [Command.runUpdate_eq]
  refine .behind fun repository => .behind fun workspace => ?_
  split
  · exact .behind fun _ => hrest repository
  · exact hrest repository

/-- A download fails where git is not installed. -/
theorem fails_runDownload (hgit : host.git = none) :
    Work.Fails (Command.runDownload options colour target reference) host := by
  have htask (repository : Repository) : Work.Fails (Work.ofTask repository
      (Repository.download reference target.place >>= fun _ =>
        Task.ofOperation (hashOf target.place "HEAD"))) host :=
    .ofTask (.behind fun _ => .ofOperation (fails_hashOf hgit))
  refine .behind fun workspace => ?_
  dsimp only
  split
  · exact .behind fun _ => .behind fun repository => .first (htask _)
  · exact .behind fun repository => .first (htask _)

end Missing

/-- Whatever the manifest, the settings, the files and git are, an update and a download exit with
zero exactly if all their steps are taken and the hash of `HEAD` is read behind them, which is then
printed; where a step fails nothing is called behind it, the status is one and nothing is printed.
Only harmless calls can fail and leave the status zero, and without git none is left so. -/
theorem exitStatus_tells_steps {arguments : List String} {host : Host} {workspace : Workspace}
    {request : Request} (hread : Request.read arguments host.environment = .ok request) :
    let ended := run arguments host workspace
    let calls := ended.workspace.callsSince workspace
    let colour := Colour.ofSetting request.options.colour host.environment
    let declared (target : Target) : Except Problem Repository :=
      ((Work.repository request.options target.repository).outcome host workspace).1
    let updated (target : Target) (reference hash : String) : String :=
      colour.choose "🔄" "[OK]" ++ " " ++ target.repository ++ " updated to " ++ reference ++
        " (" ++ hash ++ ")" ++ "\n"
    let downloaded (target : Target) (reference hash : String) : String :=
      colour.choose "📥" "[OK]" ++ " " ++ target.repository ++ " is at " ++ reference ++
        " (" ++ hash ++ ")" ++ "\n"
    ∀ target reference,
      (host.git.isSome = true → request.command = .update target reference →
        EndsBy (updateSteps workspace.files host.environment target.place reference
            (declared target)) target.place (updated target reference)
          ended.status ended.output calls) ∧
      (host.git.isSome = true → request.command = .download target reference →
        EndsBy (downloadSteps workspace.files host.environment target.place reference
            (declared target)) target.place (downloaded target reference)
          ended.status ended.output calls) ∧
      (request.command = .update target reference ∨ request.command = .download target reference →
        (∀ call ∈ calls, call.succeeded = false →
          IsHarmless host.environment target.place (declared target) call ∨
            ended.status = 1 ∧ ended.output = "") ∧
        (host.git = none → ended.status = 1 ∧ ended.output = "")) := by
  intro ended calls colour declared updated downloaded target reference
  have hrun : ended = request.run host workspace := by
    simp only [ended, run, hread]
  have hupdate (hgit : host.git.isSome = true)
      (hcommand : request.command = .update target reference) :
      EndsBy (updateSteps workspace.files host.environment target.place reference
          (declared target)) target.place (updated target reference)
        ended.status ended.output calls := by
    obtain ⟨git, hgit⟩ := Option.isSome_iff_exists.mp hgit
    simp only [calls, hrun]
    refine exits_run ?_
    rw [hcommand]
    exact ensures_runUpdate hgit
  have hdownload (hgit : host.git.isSome = true)
      (hcommand : request.command = .download target reference) :
      EndsBy (downloadSteps workspace.files host.environment target.place reference
          (declared target)) target.place (downloaded target reference)
        ended.status ended.output calls := by
    obtain ⟨git, hgit⟩ := Option.isSome_iff_exists.mp hgit
    simp only [calls, hrun]
    refine exits_run ?_
    rw [hcommand]
    exact ensures_runDownload hgit
  have hmissing (hgit : host.git = none)
      (hcommand : request.command = .update target reference ∨
        request.command = .download target reference) :
      ended.status = 1 ∧ ended.output = "" := by
    rw [hrun]
    refine exits_run_of_fails ?_
    rcases hcommand with hcommand | hcommand
    · rw [hcommand]
      exact fails_runUpdate hgit
    · rw [hcommand]
      exact fails_runDownload hgit
  refine ⟨hupdate, hdownload, fun hcommand => ⟨?_, fun hgit => hmissing hgit hcommand⟩⟩
  intro call hcall hfailed
  cases hgit : host.git with
  | none => exact .inr (hmissing hgit hcommand)
  | some git =>
    have hsome : host.git.isSome = true := by rw [hgit, Option.isSome_some]
    rcases hcommand with hcommand | hcommand
    · exact (hupdate hsome hcommand).spared spares_updateSteps call hcall hfailed
    · exact (hdownload hsome hcommand).spared spares_downloadSteps call hcall hfailed

/-- An update of a repository with a login prints its hash and exits with zero, though git refuses to
put the visible URL back behind the fetch and to merge. -/
theorem exitStatus_tells_steps_of_refusals :
    let workspace : Workspace := { files := { entries :=
      [(["m.yml"], .file (Text.encode "repository.w: \x7btype: github\x7d\n")),
        (["s.yml"], .file (Text.encode "repository.w: \x7blogin: ci\x7d\n")),
        (["repos"], .folder), (["repos", "w"], .folder)] } }
    let git : Git := fun earlier files request =>
      .ok (match request.arguments with
        | ["remote", "set-url", _, _] =>
          { status := if earlier.any (·.arguments == fetchArguments) then 1 else 0 }
        | "config" :: _ => { output := Text.encode "https://github.com//.git\n" }
        | "merge" :: _ => { status := 1 }
        | "rev-parse" :: _ => { output := Text.encode "c0\n" }
        | _ => {}, files)
    let arguments := ["--manifest", "m.yml", "--settings", "s.yml", "update", "w", "main"]
    let request : Request := ⟨⟨⟨"m.yml"⟩, some ⟨"s.yml"⟩, "auto", some .info, false, false⟩,
      .update ⟨"w", none⟩ "main"⟩
    let target : Target := ⟨"w", none⟩
    let ended := run arguments ⟨some git, ⟨[]⟩⟩ workspace
    let calls := ended.workspace.callsSince workspace
    let refused := (calls.filter (!·.succeeded)).map (·.arguments)
    let declared := ((Work.repository request.options "w").outcome ⟨some git, ⟨[]⟩⟩ workspace).1
    Request.read arguments ⟨[]⟩ = .ok request ∧
      (ended.status, ended.output, refused) = (0, "[OK] w updated to main (c0)\n",
        [setUrlArguments "https://github.com//.git",
          ["merge", "--no-commit", "--no-ff", "origin/main"]]) ∧
      EndsBy (updateSteps workspace.files ⟨[]⟩ target.place "main" declared) target.place
        ("[OK] w updated to main (" ++ · ++ ")" ++ "\n") ended.status ended.output calls ∧
      ∀ call ∈ calls, call.succeeded = false → IsHarmless ⟨[]⟩ target.place declared call := by
  intro workspace git arguments request target ended calls refused declared
  have hread : Request.read arguments ⟨[]⟩ = .ok request := rfl
  have hended : (ended.status, ended.output, refused) = (0, "[OK] w updated to main (c0)\n",
      [setUrlArguments "https://github.com//.git",
        ["merge", "--no-commit", "--no-ff", "origin/main"]]) := by decide +kernel
  obtain ⟨hupdate, -, hharmless⟩ :=
    @exitStatus_tells_steps arguments ⟨some git, ⟨[]⟩⟩ workspace request hread target "main"
  have hcolour : Colour.ofSetting "auto" ⟨[]⟩ = ⟨false⟩ := by decide +kernel
  refine ⟨hread, hended, ?_, ?_⟩
  · have hline := hupdate rfl rfl
    simp only [request, hcolour, target, Colour.choose] at hline
    exact hline
  · intro call hcall hfailed
    rcases (hharmless (.inl rfl)).1 call hcall hfailed with hcall | ⟨hone, -⟩
    · exact hcall
    · cases (congrArg Prod.fst hended).symm.trans hone

end CommandLine

end WorkingCopies
