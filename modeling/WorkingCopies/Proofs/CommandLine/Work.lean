import WorkingCopies.CommandLine.Run
import WorkingCopies.Proofs.Ensures

/-!
# What the work of a command ensures

The work of a command consists of operations and of a task on a repository, and fails with a problem.
What these ensure by themselves they ensure as its parts. It starts with reading the manifest and the
settings, which calls no git and leaves all files as they are. The work of an update is told in its
parts: what it refuses, and what it does where nothing is refused.
-/

namespace WorkingCopies

open Git (Call)

variable {α β : Type} {host : Host} {before : Workspace}

/-- Whether an operation only reads: it makes no call and leaves all files as they are. -/
def Reads (host : Host) (operation : Operation α) : Prop :=
  ∀ before, Ensures operation host before fun _ calls after =>
    calls = [] ∧ after.files = before.files

namespace Reads

/-- What reads and then reads on only reads. -/
theorem bind {operation : Operation α} {next : α → Operation β} (first : Reads host operation)
    (rest : ∀ value, Reads host (next value)) : Reads host (operation >>= next) := by
  intro before
  refine Ensures.bind (first before) ?_ fun _ _ _ hkept => hkept
  intro value calls between hbetween
  obtain ⟨rfl, hfiles⟩ := hbetween
  refine (rest value between).mono fun _ _ _ hafter => ?_
  exact ⟨hafter.1, hafter.2.trans hfiles⟩

/-- Giving what is there already reads nothing. -/
theorem ofExcept {result : Except Failure α} : Reads host (Operation.ofExcept result) :=
  fun _ => Ensures.ofExcept ⟨rfl, rfl⟩

/-- Asking about the files changes none. -/
theorem askFiles {question : FileSystem → Except FileSystem.Fault α} :
    Reads host (Operation.askFiles question) := by
  intro before
  refine Ensures.step rfl rfl ?_
  split
  · exact Ensures.pure ⟨rfl, rfl⟩
  · exact Ensures.throw ⟨rfl, rfl⟩

/-- Loading a manifest only reads. -/
theorem loadManifest (path : Path) : Reads host (Manifest.load path) :=
  askFiles.bind fun _ => bind (fun _ => ⟨[], rfl, rfl, rfl⟩) fun _ => ofExcept

/-- Loading settings only reads. -/
theorem loadSettings (path : Path) : Reads host (Settings.load path) := by
  intro before
  refine Ensures.step rfl rfl ?_
  split
  · exact ofExcept _
  · split
    · exact Ensures.step rfl rfl (Ensures.pure ⟨rfl, rfl⟩)
    · exact Ensures.throw ⟨rfl, rfl⟩

end Reads

namespace CommandLine.Work

/-- The result of some work, and the workspace that it leaves. -/
def outcome (work : Work α) (host : Host) (before : Workspace) : Except Problem α × Workspace :=
  (work.run host).run.run before

/-- What follows some work starts where the work ended, and is left out when it failed. -/
theorem outcome_bind (work : Work α) (next : α → Work β) :
    outcome (work >>= next) host before =
      match work.outcome host before with
      | (.ok value, after) => (next value).outcome host after
      | (.error problem, after) => (.error problem, after) := by
  simp only [outcome, ReaderT.run_bind, ExceptT.run_bind, StateT.run_bind]
  show (match (work.run host).run.run before with | (result, after) => _) = _
  cases (work.run host).run.run before with
  | mk result after => cases result <;> rfl

/-- The result of a task as work has the repository beside it, or the failure as its problem. -/
theorem result_ofTask (repository : Repository) (task : Task α) :
    ((ofTask repository task).outcome host before).1 =
      ((Action.outcome task host (repository, before)).1.map fun value =>
        (value, (Action.outcome task host (repository, before)).2.1)).mapError .failed := by
  unfold ofTask outcome
  simp only [ReaderT.run, ExceptT.run, StateT.run, Task.carryOut, Action.outcome]
  rcases task host (repository, before) with ⟨failure | value, left⟩
  · rfl
  · rfl

/-- Whether some work fails wherever it starts. -/
def Fails (work : Work α) (host : Host) : Prop :=
  ∀ before, ∃ problem, (work.outcome host before).1 = .error problem

namespace Fails

/-- What follows a problem is left out. -/
theorem first {work : Work α} {next : α → Work β} (h : work.Fails host) :
    Fails (work >>= next) host := by
  intro before
  obtain ⟨problem, hproblem⟩ := h before
  rw [outcome_bind]
  cases houtcome : work.outcome host before with
  | mk result after =>
    rw [houtcome] at hproblem
    cases hproblem
    exact ⟨problem, rfl⟩

/-- What ends in a problem fails. -/
theorem behind {work : Work α} {next : α → Work β} (h : ∀ value, (next value).Fails host) :
    Fails (work >>= next) host := by
  intro before
  rw [outcome_bind]
  rcases work.outcome host before with ⟨problem | value, after⟩
  · exact ⟨problem, rfl⟩
  · exact h value after

/-- A task that fails is work that fails. -/
theorem ofTask {repository : Repository} {task : Task α} (h : Action.Fails task host) :
    Fails (Work.ofTask repository task) host := by
  intro before
  obtain ⟨failure, hfailure⟩ := h (repository, before)
  refine ⟨.failed failure, ?_⟩
  rw [result_ofTask, hfailure]
  rfl

end Fails

/-- Work that goes by the workspace goes by the one that it finds. -/
theorem outcome_bind_get (next : Workspace → Work α) :
    outcome (get >>= next) host before = (next before).outcome host before := rfl

/-- The problem of a task is that it failed. -/
theorem problem_ofTask {repository : Repository} {task : Task α} {problem : Problem}
    (h : ((ofTask repository task).outcome host before).1 = .error problem) :
    ∃ failure, problem = .failed failure := by
  rw [result_ofTask] at h
  cases hresult : (Action.outcome task host (repository, before)).1 with
  | ok value =>
    rw [hresult] at h
    cases h
  | error failure =>
    rw [hresult] at h
    exact ⟨failure, (Except.error.inj h).symm⟩

/-- Some work adds some calls to those that were made before, and its result, these calls and the
workspace that it leaves have a property. -/
def Ensures (work : Work α) (host : Host) (before : Workspace)
    (post : Except Problem α → List Call → Workspace → Prop) : Prop :=
  ∃ calls, (work.outcome host before).2.calls = calls.reverse ++ before.calls ∧
    post (work.outcome host before).1 calls (work.outcome host before).2

namespace Ensures

variable {post : Except Problem α → List Call → Workspace → Prop}

/-- A property that follows from an ensured one is ensured. -/
theorem mono {work : Work α} {weaker : Except Problem α → List Call → Workspace → Prop}
    (h : Ensures work host before post)
    (hpost : ∀ result calls after, post result calls after → weaker result calls after) :
    Ensures work host before weaker := by
  obtain ⟨calls, hcalls, h⟩ := h
  exact ⟨calls, hcalls, hpost _ _ _ h⟩

/-- Two properties that are ensured are ensured together: both speak of the same calls. -/
theorem both {work : Work α} {other : Except Problem α → List Call → Workspace → Prop}
    (h : Ensures work host before post) (hother : Ensures work host before other) :
    Ensures work host before fun result calls after =>
      post result calls after ∧ other result calls after := by
  obtain ⟨calls, hcalls, h⟩ := h
  obtain ⟨others, hothers, hother⟩ := hother
  obtain rfl : others = calls := by simpa using hothers.symm.trans hcalls
  exact ⟨others, hcalls, h, hother⟩

/-- The calls that are spoken of are those that were added. -/
theorem with_calls {work : Work α} (h : Ensures work host before post) :
    Ensures work host before fun result calls after =>
      after.calls = calls.reverse ++ before.calls ∧ post result calls after := by
  obtain ⟨calls, hcalls, h⟩ := h
  exact ⟨calls, hcalls, hcalls, h⟩

/-- What follows a success adds its calls to those made before; a problem ends the whole. -/
theorem bind {work : Work α} {next : α → Work β}
    {post : Except Problem β → List Call → Workspace → Prop}
    {middle : Except Problem α → List Call → Workspace → Prop}
    (first : Ensures work host before middle)
    (success : ∀ value calls after, middle (.ok value) calls after →
      Ensures (next value) host after fun result more last => post result (calls ++ more) last)
    (failure : ∀ problem calls after, middle (.error problem) calls after →
      post (.error problem) calls after) :
    Ensures (work >>= next) host before post := by
  obtain ⟨calls, hcalls, hmiddle⟩ := first
  unfold Ensures
  rw [outcome_bind]
  cases houtcome : work.outcome host before with
  | mk result after =>
    rw [houtcome] at hcalls hmiddle
    cases result with
    | error problem => exact ⟨calls, hcalls, failure problem calls after hmiddle⟩
    | ok value =>
      obtain ⟨more, hmore, hpost⟩ := success value calls after hmiddle
      refine ⟨calls ++ more, ?_, hpost⟩
      simpa [hmore] using hcalls

/-- Giving a value makes no call. -/
theorem pure {value : α} (h : post (.ok value) [] before) :
    Ensures (Pure.pure value) host before post :=
  ⟨[], rfl, h⟩

/-- Failing makes no call. -/
theorem throw {problem : Problem} (h : post (.error problem) [] before) :
    Ensures (MonadExcept.throw problem) host before post :=
  ⟨[], rfl, h⟩

/-- What follows a problem is left out. -/
theorem bind_throw {problem : Problem} {next : β → Work α} (h : post (.error problem) [] before) :
    Ensures (MonadExcept.throw problem >>= next) host before post :=
  ⟨[], rfl, h⟩

/-- Work that goes by the workspace goes by the one that it finds. -/
theorem bind_get {next : Workspace → Work α} (h : Ensures (next before) host before post) :
    Ensures (get >>= next) host before post :=
  h

/-- Work that goes by the host goes by the one that it is done on. -/
theorem bind_read {next : Host → Work α} (h : Ensures (next host) host before post) :
    Ensures (read >>= next) host before post :=
  h

/-- An operation ensures as work what it ensures by itself, and a failure of its own is a problem. -/
theorem ofOperation {problem : Failure → Problem} {operation : Operation α}
    (h : WorkingCopies.Ensures operation host before fun result =>
      post (result.mapError problem)) :
    Ensures (Work.ofOperation problem operation) host before post :=
  h

/-- A task on a repository ensures as work what it ensures by itself. -/
theorem ofTask {repository : Repository} {task : Task α}
    {post : Except Problem (α × Repository) → List Call → Workspace → Prop}
    (h : WorkingCopies.Ensures task host (repository, before) fun result calls after =>
      post ((result.map fun value => (value, after.1)).mapError .failed) calls after.2) :
    Ensures (Work.ofTask repository task) host before post := by
  obtain ⟨calls, hcalls, h⟩ := h
  refine ⟨calls, hcalls, ?_⟩
  rw [result_ofTask]
  exact h

/-- An operation that only reads is work that only reads. -/
theorem of_reads {problem : Failure → Problem} {operation : Operation α}
    (h : Reads host operation) :
    Ensures (Work.ofOperation problem operation) host before fun _ calls after =>
      calls = [] ∧ after.files = before.files :=
  ofOperation (h before)

end Ensures

/-- Loading the manifest only reads. -/
theorem ensures_loadManifest (options : Options) :
    Ensures (loadManifest options) host before fun _ calls after =>
      calls = [] ∧ after.files = before.files :=
  .of_reads (.loadManifest options.manifest)

/-- Loading the settings only reads. -/
theorem ensures_loadSettings (options : Options) :
    Ensures (loadSettings options) host before fun _ calls after =>
      calls = [] ∧ after.files = before.files :=
  .bind_read (.of_reads (.loadSettings _))

/-- A declared repository has not been fetched, and finding it only reads. -/
theorem ensures_repository (options : Options) (name : String) :
    Ensures (repository options name) host before fun result calls after =>
      result = ((repository options name).outcome host before).1 ∧ calls = [] ∧
        after.files = before.files ∧
        ∀ found, result = .ok found → found.fetched.isClosed = false := by
  have hdeclared (manifest : Manifest) (settings : Settings) (start : Workspace) :
      Ensures (ofOperation .failed (manifest.repository name settings)) host start
        fun result calls after => calls = [] ∧ after.files = start.files ∧
          ∀ found, result = .ok found → found.fetched.isClosed = false := by
    have hsource : WorkingCopies.Ensures (Operation.ofExcept (manifest.source name settings)) host
        start fun _ calls after => calls = [] ∧ after.files = start.files :=
      WorkingCopies.Ensures.ofExcept ⟨rfl, rfl⟩
    refine .ofOperation (WorkingCopies.Ensures.bind hsource ?_ ?_)
    · intro source calls after hafter
      obtain ⟨rfl, hfiles⟩ := hafter
      refine WorkingCopies.Ensures.pure ⟨rfl, hfiles, ?_⟩
      rintro _ ⟨⟩
      rfl
    · intro failure calls after hafter
      exact ⟨hafter.1, hafter.2, nofun⟩
  have hread : Ensures (repository options name) host before fun result calls after =>
      calls = [] ∧ after.files = before.files ∧
        ∀ found, result = .ok found → found.fetched.isClosed = false := by
    refine .bind (ensures_loadManifest options) ?_ fun _ _ _ hkept => ⟨hkept.1, hkept.2, nofun⟩
    intro manifest calls between hbetween
    obtain ⟨rfl, hfiles⟩ := hbetween
    refine .bind (ensures_loadSettings options) ?_ fun _ _ _ hkept =>
      ⟨hkept.1, hkept.2.trans hfiles, nofun⟩
    intro settings calls last hlast
    obtain ⟨rfl, hsame⟩ := hlast
    refine (hdeclared manifest settings last).mono fun _ _ _ h => ?_
    exact ⟨h.1, h.2.1.trans (hsame.trans hfiles), h.2.2⟩
  obtain ⟨calls, hcalls, h⟩ := hread
  exact ⟨calls, hcalls, rfl, h⟩

end CommandLine.Work

namespace CommandLine.Command

/-- What stands against the update of a working copy with changes. -/
def refusal (place : Path) : Problem :=
  .refused (place.text ++ " has uncommitted changes; commit or discard them before updating")

/-- Refuse to go on where a working copy has changes. -/
def refuseChanges (place : Path) : Work Unit := do
  if ← Work.ofOperation .failed (WorkingCopy.hasChanges place) then throw (refusal place)

/-- The line that an update prints. -/
def updateLine (colour : Colour) (target : Target) (reference hash : String) : String :=
  colour.choose "🔄" "[OK]" ++ " " ++ target.repository ++ " updated to " ++ reference ++
    " (" ++ hash ++ ")"

/-- What an update does with a repository when nothing stands against it. -/
def proceedUpdate (colour : Colour) (target : Target) (reference : String)
    (repository : Repository) : Work (List String) := do
  let (commit, _) ← Work.ofTask { repository with commit := reference } do
    Repository.update target.place reference
    Task.ofOperation (Repository.repairOrigin target.place repository.source)
    Task.ofOperation (WorkingCopy.hashOf target.place "HEAD")
  return [updateLine colour target reference commit]

/-- An update refuses changes of a working copy that is there, and then goes on. -/
theorem runUpdate_eq (options : Options) (colour : Colour) (target : Target) (reference : String) :
    runUpdate options colour target reference =
      Work.repository options target.repository >>= fun repository =>
        get >>= fun workspace =>
          if workspace.files.leadsAnywhere target.place then
            refuseChanges target.place >>= fun _ => proceedUpdate colour target reference repository
          else proceedUpdate colour target reference repository := by
  have hrefuse (rest : Work (List String)) : refuseChanges target.place >>= (fun _ => rest) =
      Work.ofOperation .failed (WorkingCopy.hasChanges target.place) >>= fun changed =>
        if changed then throw (refusal target.place) else rest := by
    unfold refuseChanges
    rw [bind_assoc]
    congr 1
    funext changed
    cases changed <;> rfl
  simp only [hrefuse]
  rfl

end CommandLine.Command

end WorkingCopies
