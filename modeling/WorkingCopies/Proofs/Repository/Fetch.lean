import WorkingCopies.Proofs.Ensures
import WorkingCopies.Proofs.Latch

/-!
# The fetch of a repository

A repository is fetched under its latch. With the latch closed nothing happens; with the latch open
the fetch from the source is carried out, and its result decides whether the latch closes.
-/

namespace WorkingCopies.Repository

variable {host : Host} {repository : Repository} {workspace : Workspace} {workingCopy : Path}

/-- A closed latch leaves the fetch out; an open one lets it run and closes after a success. -/
theorem carryOut_fetch (workingCopy : Path) (host : Host) (repository : Repository)
    (workspace : Workspace) :
    (fetch workingCopy).carryOut host repository workspace =
      if repository.fetched.isClosed then (.ok (), repository, workspace)
      else
        let outcome := (fetchFrom workingCopy repository.source).carryOut host workspace
        (outcome.1, { repository with fetched := ⟨outcome.1.isOk⟩ }, outcome.2) := by
  let run : StateM Workspace (Except Failure Unit) :=
    (fetchFrom workingCopy repository.source).carryOut host
  have honce := Latch.run_once repository.fetched run workspace
  show (let step := (repository.fetched.once run).run workspace
    (step.1.1, { repository with fetched := step.1.2 }, step.2)) = _
  rw [honce]
  by_cases hclosed : repository.fetched.isClosed = true
  · simp only [hclosed, if_true]
  · simp only [hclosed]
    rfl

variable {post : Except Failure Unit → List Git.Call → Repository × Workspace → Prop}

/-- With the latch closed the fetch succeeds and does nothing. -/
theorem ensures_fetch_of_closed (hclosed : repository.fetched.isClosed = true)
    (h : post (.ok ()) [] (repository, workspace)) :
    Ensures (fetch workingCopy) host (repository, workspace) post := by
  have houtcome : Action.outcome (fetch workingCopy) host (repository, workspace) =
      (.ok (), repository, workspace) := by
    have hfetch := carryOut_fetch workingCopy host repository workspace
    rwa [if_pos hclosed] at hfetch
  refine ⟨[], ?_, ?_⟩ <;> rw [houtcome]
  · rfl
  · exact h

/-- With the latch open the fetch is the one from the source, and a success closes the latch. -/
theorem ensures_fetch_of_open (hopen : repository.fetched.isClosed = false)
    (h : Ensures (fetchFrom workingCopy repository.source) host workspace
      fun result calls after =>
        post result calls ({ repository with fetched := ⟨result.isOk⟩ }, after)) :
    Ensures (fetch workingCopy) host (repository, workspace) post := by
  have houtcome : Action.outcome (fetch workingCopy) host (repository, workspace) = _ :=
    carryOut_fetch workingCopy host repository workspace
  obtain ⟨calls, hcalls, hpost⟩ := h
  refine ⟨calls, ?_, ?_⟩ <;> rw [houtcome, hopen, if_neg Bool.false_ne_true]
  · exact hcalls
  · exact hpost

end WorkingCopies.Repository
