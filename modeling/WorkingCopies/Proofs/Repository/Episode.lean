import WorkingCopies.Proofs.Repository.Commands

/-!
# Episodes of a run

A run serves requests one after the other. Its episodes tell it request by request: where each one
found the repository and the workspace, what was answered, and which calls of git were made for it,
the first one first. What every request keeps holds wherever an episode starts, so a statement about
all episodes of a run comes down to one about a single request.
-/

namespace WorkingCopies

/-- The calls that one workspace has behind those of another, the first one first. -/
def Workspace.callsSince (after before : Workspace) : List Git.Call :=
  (after.calls.take (after.calls.length - before.calls.length)).reverse

/-- Calls made on top of others are the calls since then. -/
theorem Workspace.callsSince_eq {after before : Workspace} {calls : List Git.Call}
    (h : after.calls = calls.reverse ++ before.calls) : after.callsSince before = calls := by
  simp [callsSince, h]

namespace Repository

/-- One request of a run. -/
structure Episode where
  request : Request
  /-- The repository and the workspace before the request. -/
  start : Repository × Workspace
  answer : Except Failure Answer
  /-- The calls of git made for the request, the first one first. -/
  calls : List Git.Call

/-- The episodes of a run, in order. -/
def episodes (host : Host) : Repository × Workspace → List Request → List Episode
  | _, [] => []
  | start, request :: requests =>
    let (answer, after) := request.serve.carryOut host start.1 start.2
    ⟨request, start, answer, after.2.callsSince start.2⟩ :: episodes host after requests

variable {host : Host}

/-- The episodes give the answers of the run. -/
theorem map_answer_episodes (start : Repository × Workspace) (requests : List Request) :
    (episodes host start requests).map (·.answer) =
      (Request.serveAll host start.1 start.2 requests).1 := by
  induction requests generalizing start with
  | nil => rfl
  | cons request requests ih => exact congrArg _ (ih _)

/-- The episodes tell the requests of the run. -/
theorem map_request_episodes (start : Repository × Workspace) (requests : List Request) :
    (episodes host start requests).map (·.request) = requests := by
  induction requests generalizing start with
  | nil => rfl
  | cons request requests ih => exact congrArg _ (ih _)

/-- The calls of a run are those of its episodes, one episode after the other. -/
theorem calls_serveAll (start : Repository × Workspace) (requests : List Request) :
    (Request.serveAll host start.1 start.2 requests).2.2.calls =
      ((episodes host start requests).flatMap (·.calls)).reverse ++ start.2.calls := by
  induction requests generalizing start with
  | nil => rfl
  | cons request requests ih =>
    obtain ⟨calls, hcalls, -⟩ := request.makes_serve host start
    have hsince : (request.serve.carryOut host start.1 start.2).2.2.callsSince start.2 = calls :=
      Workspace.callsSince_eq hcalls
    have hrest := ih (request.serve.carryOut host start.1 start.2).2
    show (Request.serveAll host (request.serve.carryOut host start.1 start.2).2.1
      (request.serve.carryOut host start.1 start.2).2.2 requests).2.2.calls = _
    rw [hrest]
    simp only [episodes, hsince, List.flatMap_cons, List.reverse_append, List.append_assoc]
    exact congrArg _ hcalls

/-- The repository and the workspace behind an episode. -/
def Episode.finish (host : Host) (episode : Episode) : Repository × Workspace :=
  (episode.request.serve.carryOut host episode.start.1 episode.start.2).2

/-- What every request keeps holds where a run has led. -/
theorem invariant_serveAll (invariant : Repository × Workspace → Prop)
    {start : Repository × Workspace} {requests : List Request} (hstart : invariant start)
    (hserve : ∀ (request : Request) (state : Repository × Workspace), invariant state →
      invariant (request.serve.carryOut host state.1 state.2).2) :
    invariant (Request.serveAll host start.1 start.2 requests).2 := by
  induction requests generalizing start with
  | nil => exact hstart
  | cons request requests ih => exact ih (hserve request start hstart)

/-- The episodes before some episode are a run of their own, and the episode starts where that run
has led. -/
theorem exists_requests_of_split {start : Repository × Workspace} {requests : List Request}
    {earlier later : List Episode} {episode : Episode}
    (h : episodes host start requests = earlier ++ episode :: later) :
    ∃ served, earlier = episodes host start served ∧
      episode.start = (Request.serveAll host start.1 start.2 served).2 := by
  induction earlier generalizing start requests with
  | nil =>
    cases requests with
    | nil => cases h
    | cons request requests =>
      obtain ⟨rfl, -⟩ := List.cons.inj h
      exact ⟨[], rfl, rfl⟩
  | cons first earlier ih =>
    cases requests with
    | nil => cases h
    | cons request requests =>
      obtain ⟨rfl, hrest⟩ := List.cons.inj h
      obtain ⟨served, hserved, hstart⟩ := ih hrest
      exact ⟨request :: served, congrArg _ hserved, hstart⟩

/-- What one request ensures from every state that a run can reach holds of every episode. -/
theorem forall_mem_episodes (invariant : Repository × Workspace → Prop) {property : Episode → Prop}
    {start : Repository × Workspace} {requests : List Request} (hstart : invariant start)
    (hserve : ∀ request ∈ requests, ∀ state, invariant state →
      Ensures request.serve host state fun answer calls after =>
        invariant after ∧ property ⟨request, state, answer, calls⟩) :
    ∀ episode ∈ episodes host start requests, property episode := by
  induction requests generalizing start with
  | nil => simp [episodes]
  | cons request requests ih =>
    obtain ⟨calls, hcalls, hafter, hproperty⟩ := hserve request List.mem_cons_self start hstart
    have hsince : (request.serve.carryOut host start.1 start.2).2.2.callsSince start.2 = calls :=
      Workspace.callsSince_eq hcalls
    intro episode hepisode
    rcases List.mem_cons.mp hepisode with rfl | hlater
    · rw [← hsince] at hproperty
      exact hproperty
    · exact ih hafter (fun other hother => hserve other (List.mem_cons_of_mem _ hother))
        episode hlater

end Repository

end WorkingCopies
