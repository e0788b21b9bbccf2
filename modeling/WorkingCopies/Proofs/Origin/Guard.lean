import WorkingCopies.Origin
import WorkingCopies.Proofs.Git.Attempt

/-!
# The guard of the origin

A command that needs the login runs between two others: the URL with the login is set before it and
the visible URL after it. The second one is attempted however the command ended, and its own failure
changes no result. Where the first one fails, nothing else is attempted.
-/

namespace WorkingCopies.Origin

open Git (Call Command)
open Reference (remoteName)

variable {host : Host} {before : Workspace} {workingCopy : Path} {urls : RemoteUrls}
  {password url : String}

/-- The command that sets the URL of the origin of a working copy. -/
abbrev setUrlWithin (workingCopy : Path) (url password : String) : Command :=
  (setUrlCommand url password).within workingCopy

/-- The arguments that set the URL of the remote. -/
def setUrlArguments (url : String) : List String := ["remote", "set-url", remoteName, url]

/-- Where a login is needed, setting the one URL is not setting the other. -/
theorem setUrlArguments_visible_ne (hurls : urls.needAccess = true) :
    setUrlArguments urls.visible ≠ setUrlArguments urls.authenticated := by
  have hne : urls.authenticated ≠ urls.visible := of_decide_eq_true hurls
  intro h
  simp only [setUrlArguments, List.cons.injEq, and_true, true_and] at h
  exact hne h.symm

/-- Setting a URL gives git the URL itself, whatever is shown in its place. -/
theorem of_runs_setUrlWithin {call : Call} (h : call.Runs (setUrlWithin workingCopy url password)) :
    call.folder = some workingCopy ∧ call.arguments = setUrlArguments url :=
  ⟨h.folder, h.arguments⟩

/-- Setting a URL is one call, and fails with that call. -/
theorem ensures_setUrl {git : Git} (hgit : host.git = some git) :
    Ensures (setUrl workingCopy url password) host before fun result calls _ =>
      ∃ set : Call, set.Runs (setUrlWithin workingCopy url password) ∧ calls = [set] ∧
        result = ((setUrlWithin workingCopy url password).conclude set.outcome).map
          fun _ => () := by
  refine Ensures.discard ((ensures_run_of_git hgit).mono ?_)
  intro result calls _ hrun
  obtain ⟨set, hset, rfl, rfl⟩ := hrun
  exact ⟨set, hset, rfl, rfl⟩

/-- Putting the visible URL back is one call and never fails. -/
theorem ensures_restore {git : Git} (hgit : host.git = some git) (hurls : urls.needAccess = true) :
    Ensures (restore workingCopy urls password) host before fun result calls _ =>
      result = .ok () ∧ ∃ back : Call,
        back.Runs (setUrlWithin workingCopy urls.visible password) ∧ calls = [back] := by
  unfold restore
  rw [if_pos hurls]
  refine Ensures.bind_attempt (ensures_setUrl hgit) ?_
  intro result calls after hset
  obtain ⟨back, hback, rfl, -⟩ := hset
  cases result with
  | ok _ => exact Ensures.pure ⟨rfl, back, hback, rfl⟩
  | error failure => exact Ensures.report ⟨rfl, back, hback, rfl⟩

/-- What may leave the password in the origin is followed by one call that puts the visible URL
back, and its own result stays. -/
theorem ensures_restoringAfter {α : Type} {operation : Operation α}
    {middle : Except Failure α → List Call → Workspace → Prop} {git : Git}
    (hgit : host.git = some git) (hurls : urls.needAccess = true)
    (hoperation : Ensures operation host before middle) :
    Ensures (restoringAfter workingCopy urls password operation) host before fun result calls _ =>
      ∃ inner between, ∃ back : Call, middle result inner between ∧
        back.Runs (setUrlWithin workingCopy urls.visible password) ∧ calls = inner ++ [back] := by
  refine Ensures.bind_attempt hoperation ?_
  intro result inner between hmiddle
  refine Ensures.bind (ensures_restore hgit hurls) ?_ ?_
  · intro _ calls after hrestored
    obtain ⟨-, back, hback, rfl⟩ := hrestored
    exact Ensures.ofExcept ⟨inner, between, back, hmiddle, hback, by simp⟩
  · intro failure calls after hrestored
    obtain ⟨⟨⟩, -⟩ := hrestored

/-- Where no login is needed nothing has to be put back. -/
theorem restoringAfter_eq {α : Type} (hurls : urls.needAccess = false)
    (operation : Operation α) :
    restoringAfter workingCopy urls password operation = operation := by
  refine Action.ext fun host before => ?_
  have hrestore (between : Workspace) :
      Action.outcome (restore workingCopy urls password) host between = (.ok (), between) := by
    simp only [restore, hurls]
    rfl
  unfold restoringAfter
  rw [outcome_bind]
  show Action.outcome _ host (Action.outcome operation host before).2 = _
  rw [outcome_bind, hrestore]
  exact Operation.carryOut_ofExcept host _ _

/-- Where no login is needed a command is run as it stands. -/
theorem runAuthenticated_eq (hurls : urls.needAccess = false) (command : Command) :
    runAuthenticated workingCopy urls password command = (command.within workingCopy).run := by
  unfold runAuthenticated
  simp only [hurls, Bool.false_eq_true, if_false]
  exact restoringAfter_eq hurls _

/-- The calls of a guarded command, and what comes of it: either the URL with the login could not
be set, and nothing else was attempted; or it was set, the command was attempted and gave the
result, and the visible URL was set behind it. -/
def GuardedRun (workingCopy : Path) (urls : RemoteUrls) (password : String) (command : Command)
    (result : Except Failure Bytes) (calls : List Call) : Prop :=
  ∃ set : Call, set.Runs (setUrlWithin workingCopy urls.authenticated password) ∧
    ((set.succeeded = false ∧ calls = [set] ∧
        result = (setUrlWithin workingCopy urls.authenticated password).conclude set.outcome) ∨
      (set.succeeded = true ∧ ∃ run back : Call, run.Runs (command.within workingCopy) ∧
        back.Runs (setUrlWithin workingCopy urls.visible password) ∧ calls = [set, run, back] ∧
        result = (command.within workingCopy).conclude run.outcome))

/-- A command that needs the login is guarded. -/
theorem ensures_runAuthenticated {command : Command} {git : Git} (hgit : host.git = some git)
    (hurls : urls.needAccess = true) :
    Ensures (runAuthenticated workingCopy urls password command) host before
      fun result calls _ => GuardedRun workingCopy urls password command result calls := by
  unfold runAuthenticated
  simp only [hurls, if_true]
  refine Ensures.bind (ensures_setUrl hgit) ?_ ?_
  · intro _ calls after hset
    obtain ⟨set, hset, rfl, hresult⟩ := hset
    have hsucceeded := Command.succeeded_of_map_conclude hresult.symm
    refine (ensures_restoringAfter hgit hurls (ensures_run_of_git hgit)).mono ?_
    intro result calls _ hrestored
    obtain ⟨_, -, back, ⟨run, hrun, rfl, hrunResult⟩, hback, rfl⟩ := hrestored
    exact ⟨set, hset, .inr ⟨hsucceeded, run, back, hrun, hback, rfl, hrunResult⟩⟩
  · intro failure calls after hset
    obtain ⟨set, hset, rfl, hresult⟩ := hset
    obtain ⟨hfailed, hfailure⟩ := Command.failed_of_map_conclude hresult.symm
    exact ⟨set, hset, .inl ⟨hfailed, rfl, hfailure.symm⟩⟩

end WorkingCopies.Origin
