import WorkingCopies.Proofs.Repository.Fetch
import WorkingCopies.Repository.Request

/-!
# What requests leave alone

No request changes where a repository comes from, and a request that does not fetch leaves the latch
as it is. What holds for a source at the start of a run therefore holds for it at every request of
the run, and the latch tells at every request whether one before it has fetched.
-/

namespace WorkingCopies

variable {α β Value : Type} {part : Repository → Value}

/-- Whether a task leaves some part of every repository as it is. -/
def Keeps (part : Repository → Value) (task : Task α) : Prop :=
  ∀ host state, part (Action.outcome task host state).2.1 = part state.1

namespace Keeps

/-- Two tasks that keep a part keep it when they are done in turn. -/
theorem bind {task : Task α} {next : α → Task β} (first : Keeps part task)
    (rest : ∀ value, Keeps part (next value)) : Keeps part (task >>= next) := by
  intro host state
  have hfirst := first host state
  rw [outcome_bind]
  cases houtcome : Action.outcome task host state with
  | mk result after =>
    rw [houtcome] at hfirst
    cases result with
    | ok value => exact (rest value host after).trans hfirst
    | error failure => exact hfirst

/-- Giving a value keeps every part. -/
theorem pure (value : α) : Keeps part (Pure.pure value) := fun _ _ => rfl

/-- An operation keeps every part. -/
theorem ofOperation (operation : Operation α) : Keeps part (Task.ofOperation operation) :=
  fun _ _ => rfl

/-- Asking for the state keeps every part. -/
theorem bind_get {next : Repository × Workspace → Task α} (rest : ∀ state, Keeps part (next state)) :
    Keeps part (get >>= next) :=
  bind (fun _ _ => rfl) rest

/-- Asking for the source keeps every part. -/
theorem bind_source {next : Source → Task α} (rest : ∀ source, Keeps part (next source)) :
    Keeps part (Task.source >>= next) :=
  bind (fun _ _ => rfl) rest

end Keeps

namespace Repository

/-- A fetch keeps all but the latch, whether it runs or not. -/
theorem keeps_fetch (workingCopy : Path)
    (hpart : ∀ (repository : Repository) (fetched : Latch),
      part { repository with fetched } = part repository) : Keeps part (fetch workingCopy) := by
  intro host state
  obtain ⟨repository, workspace⟩ := state
  have hfetch := carryOut_fetch workingCopy host repository workspace
  show part ((fetch workingCopy).carryOut host repository workspace).2.1 = _
  rw [hfetch]
  split
  · rfl
  · exact hpart _ _

namespace Request

/-- The working copy that a request fetches into before it does anything else. -/
def fetchedInto? : Request → Option Path
  | .fetchFile workingCopy .. => some workingCopy
  | .update workingCopy _ => some workingCopy
  | _ => none

/-- The reference that a request chooses. -/
def chosen? : Request → Option String
  | .setCommit reference => some reference
  | _ => none

/-- A request keeps what its fetch keeps, if it fetches, and what choosing its reference keeps, if it
chooses one. -/
theorem keeps_serve_of (request : Request)
    (hfetch : ∀ workingCopy, request.fetchedInto? = some workingCopy → Keeps part (fetch workingCopy))
    (hchosen : ∀ commit, request.chosen? = some commit → ∀ repository : Repository,
      part { repository with commit } = part repository) : Keeps part request.serve := by
  cases request with
  | fetchFile workingCopy file folder =>
    refine .bind (.bind_source fun source => ?_) fun _ => .pure _
    have hnetwork : Keeps part (fetch workingCopy >>= fun _ => get >>= fun state =>
        Task.ofOperation (WorkingCopy.showFile workingCopy state.1.commit file folder)) :=
      .bind (hfetch workingCopy rfl) fun _ => .bind_get fun _ => .ofOperation _
    cases source with
    | folder path => exact .ofOperation _
    | hosted hosted => exact hnetwork
    | remote url => exact hnetwork
  | update workingCopy reference =>
    refine .bind (.bind_source fun source => ?_) fun _ => .pure _
    have hnetwork : Keeps part (fetch workingCopy >>= fun _ =>
        Task.ofOperation (checkoutAndMerge workingCopy reference) >>= fun _ =>
          Task.ofOperation (checkout workingCopy reference)) :=
      .bind (hfetch workingCopy rfl) fun _ => .bind (.ofOperation _) fun _ => .ofOperation _
    cases source with
    | folder path => exact .bind (.ofOperation _) fun _ => .ofOperation _
    | hosted hosted => exact hnetwork
    | remote url => exact hnetwork
  | commit => exact fun _ _ => rfl
  | setCommit reference => exact fun _ _ => hchosen reference rfl _
  | download reference target =>
    exact .bind (.bind_source fun source => .ofOperation _) fun _ => .pure _
  | repairOrigin workingCopy =>
    exact .bind_source fun source => .bind (.ofOperation _) fun _ => .pure _
  | hashOf workingCopy reference => exact .bind (.ofOperation _) fun _ => .pure _
  | namesOf workingCopy reference => exact .bind (.ofOperation _) fun _ => .pure _
  | kindOf workingCopy reference => exact .bind (.ofOperation _) fun _ => .pure _
  | hasChanges workingCopy => exact .bind (.ofOperation _) fun _ => .pure _

/-- A request that does not fetch keeps all but the chosen reference. -/
theorem keeps_serve (request : Request) (hrequest : request.fetchedInto? = none)
    (hpart : ∀ (repository : Repository) (commit : String),
      part { repository with commit } = part repository) : Keeps part request.serve :=
  request.keeps_serve_of (by simp [hrequest]) fun commit _ repository => hpart repository commit

/-- Serving a request keeps the source. -/
theorem keepsSource_serve (request : Request) : Keeps source request.serve :=
  request.keeps_serve_of (fun workingCopy _ => keeps_fetch workingCopy fun _ _ => rfl)
    fun _ _ _ => rfl

/-- The reference that is chosen when some requests have been served: the one chosen last. -/
def chosenBehind (commit : String) (requests : List Request) : String :=
  (requests.filterMap chosen?).getLast?.getD commit

/-- Serving a request chooses its reference, if it has one, and leaves the chosen one else. -/
theorem commit_serve (request : Request) (host : Host) (state : Repository × Workspace) :
    (Action.outcome request.serve host state).2.1.commit =
      request.chosen?.getD state.1.commit := by
  cases hchosen : request.chosen? with
  | none =>
    have hkeeps : Keeps Repository.commit request.serve :=
      request.keeps_serve_of (fun workingCopy _ => keeps_fetch workingCopy fun _ _ => rfl)
        (by simp [hchosen])
    exact hkeeps host state
  | some reference =>
    cases request with
    | setCommit other =>
      cases hchosen
      rfl
    | _ => cases hchosen

/-- When requests have been served, the reference chosen last is chosen. -/
theorem commit_serveAll (host : Host) (state : Repository × Workspace) (requests : List Request) :
    (serveAll host state.1 state.2 requests).2.1.commit = chosenBehind state.1.commit requests := by
  induction requests generalizing state with
  | nil => rfl
  | cons request requests ih =>
    have hserve := request.commit_serve host state
    have hrest := ih (Action.outcome request.serve host state).2
    rw [hserve] at hrest
    refine hrest.trans ?_
    unfold chosenBehind
    cases hchosen : request.chosen? with
    | none => simp [hchosen]
    | some reference =>
      rw [List.filterMap_cons_some hchosen, List.getLast?_cons]
      rfl

end Request

end Repository

end WorkingCopies
