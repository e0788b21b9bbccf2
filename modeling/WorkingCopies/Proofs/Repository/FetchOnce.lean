import WorkingCopies.Proofs.Repository.Episode
import WorkingCopies.Proofs.Repository.FetchFirst

/-!
# Fetching once in a run

A repository that is reached over a network is fetched once in a run. The latch is closed exactly if
one of the calls made so far has fetched, which every request keeps true: one that fetches finds the
latch open and closes it if the fetch succeeds, and one that does not leaves the latch alone.
-/

namespace WorkingCopies.Repository

open Git (Call)

variable {host : Host} {git : Git} {source : Source} {state : Repository × Workspace}
  {request : Request}

/-- What an episode has to do with the fetch, where it is known whether the source has been fetched
before. -/
structure Episode.FetchesUnless (source : Source) (host : Host) (isFetched : Prop)
    (episode : Episode) : Prop where
  /-- All requests but two never fetch, and do not change whether the next one will. -/
  leaves : episode.request.fetchedInto? = none →
    (∀ call ∈ episode.calls, call.arguments.head? ≠ some "fetch") ∧
      (episode.finish host).1.fetched = episode.start.1.fetched
  /-- Behind a fetch that succeeded the two leave it out. -/
  skips : ∀ workingCopy, episode.request.fetchedInto? = some workingCopy → isFetched →
    ∀ call ∈ episode.calls, call.Names workingCopy ("show" :: mergeCommands)
  /-- Before it they fetch at once. -/
  fetches : ∀ workingCopy, episode.request.fetchedInto? = some workingCopy → ¬ isFetched →
    ∃ result first rest, episode.calls = first ++ rest ∧
      FetchesAtOnce (source.urls host.environment) (source.password host.environment) workingCopy
        episode.start.2.files result first rest episode.answer (episode.finish host)

/-- What serving a request comes to: the calls that have fetched are told by the latch before and
after it, and the request fetches unless the latch is closed. -/
def Tallies (source : Source) (host : Host) (request : Request) (state : Repository × Workspace)
    (answer : Except Failure Answer) (calls : List Call) (after : Repository × Workspace) : Prop :=
  calls.countP hasFetched + state.1.fetched.isClosed.toNat = after.1.fetched.isClosed.toNat ∧
    Episode.FetchesUnless source host (state.1.fetched.isClosed = true)
      ⟨request, state, answer, calls⟩

/-- A request that does not fetch has no command that does. -/
theorem Request.fetch_not_mem_commands (h : request.fetchedInto? = none) :
    "fetch" ∉ request.commands := by
  cases request with
  | fetchFile workingCopy file folder => cases h
  | update workingCopy reference => cases h
  | _ => simp [commands, checkoutCommands, Reference.probeCommands]

/-- Calls that name other commands than the fetch have fetched nothing. -/
theorem countP_hasFetched_eq_zero {calls : List Call}
    (h : ∀ call ∈ calls, call.arguments.head? ≠ some "fetch") : calls.countP hasFetched = 0 := by
  rw [List.countP_eq_zero]
  intro call hcall
  simp [hasFetched_eq_false (h call hcall)]

/-- The commands behind a fetch have fetched nothing. -/
theorem countP_hasFetched_of_names {calls : List Call} {workingCopy : Path}
    (h : ∀ call ∈ calls, call.Names workingCopy ("show" :: mergeCommands)) :
    calls.countP hasFetched = 0 :=
  countP_hasFetched_eq_zero fun call hcall => (h call hcall).head_ne (by decide)

/-- A request that does not fetch leaves the latch alone. -/
theorem ensures_tallies_of_none (hrequest : request.fetchedInto? = none) :
    Ensures request.serve host state (Tallies source host request state) := by
  have hlatch : (Action.outcome request.serve host state).2.1.fetched = state.1.fetched :=
    request.keeps_serve hrequest (fun _ _ => rfl) host state
  refine (request.makes_serve host state).with_outcome.mono ?_
  intro answer calls after hcalls
  obtain ⟨rfl, hcalls⟩ := hcalls
  have hother : ∀ call ∈ calls, call.arguments.head? ≠ some "fetch" := by
    intro call hcall hhead
    obtain ⟨name, hname, hnamed⟩ := hcalls call hcall
    obtain rfl : "fetch" = name := Option.some.inj (hhead.symm.trans hnamed)
    exact Request.fetch_not_mem_commands hrequest hname
  constructor
  · rw [hlatch, countP_hasFetched_eq_zero hother, Nat.zero_add]
  · exact ⟨fun _ => ⟨hother, hlatch⟩, by simp [hrequest], by simp [hrequest]⟩

variable {workingCopy : Path}

/-- With the latch closed nothing is fetched. -/
theorem ensures_tallies_of_closed (hnetwork : state.1.source.isNetwork = true)
    (hrequest : request.fetchedInto? = some workingCopy)
    (hclosed : state.1.fetched.isClosed = true) :
    Ensures request.serve host state (Tallies source host request state) := by
  refine (ensures_serve_of_closed hnetwork hrequest hclosed).mono ?_
  intro answer calls after hcalls
  obtain ⟨hcalls, hlatch⟩ := hcalls
  constructor
  · rw [hlatch, hclosed, countP_hasFetched_of_names hcalls, Nat.zero_add]
  · refine ⟨by simp [hrequest], ?_, by simp [hclosed]⟩
    intro other hother _
    obtain rfl : workingCopy = other := Option.some.inj (hrequest.symm.trans hother)
    exact hcalls

/-- With the latch open a fetch that succeeds closes it. -/
theorem ensures_tallies_of_open (hgit : host.git = some git) (hsource : state.1.source = source)
    (hnetwork : source.isNetwork = true) (hrequest : request.fetchedInto? = some workingCopy)
    (hopen : state.1.fetched.isClosed = false) :
    Ensures request.serve host state (Tallies source host request state) := by
  subst hsource
  refine (ensures_serve_of_open hgit hnetwork hrequest hopen).with_outcome.mono ?_
  intro answer calls after hfetches
  obtain ⟨rfl, result, first, rest, rfl, hfetches⟩ := hfetches
  constructor
  · rw [hopen, hfetches.latch, List.countP_append, hfetches.step.countP_hasFetched,
      countP_hasFetched_of_names hfetches.commands]
    rfl
  · refine ⟨by simp [hrequest], by simp [hopen], ?_⟩
    intro other hother _
    obtain rfl : workingCopy = other := Option.some.inj (hrequest.symm.trans hother)
    exact ⟨result, first, rest, rfl, hfetches⟩

/-- Every request of a network repository tallies. -/
theorem ensures_tallies (request : Request) (hgit : host.git = some git)
    (hsource : state.1.source = source) (hnetwork : source.isNetwork = true) :
    Ensures request.serve host state (Tallies source host request state) := by
  cases hrequest : request.fetchedInto? with
  | none => exact ensures_tallies_of_none hrequest
  | some workingCopy =>
    cases hlatch : state.1.fetched.isClosed with
    | true => exact ensures_tallies_of_closed (hsource ▸ hnetwork) hrequest hlatch
    | false => exact ensures_tallies_of_open hgit hsource hnetwork hrequest hlatch

/-- Wherever a run has led, the calls that have fetched are told by the latch. -/
theorem countP_hasFetched_serveAll (commit : String) (workspace : Workspace)
    (requests : List Request) (hgit : host.git = some git) (hnetwork : source.isNetwork = true) :
    let start : Repository × Workspace := ({ source, commit }, workspace)
    let after := (Request.serveAll host start.1 start.2 requests).2
    after.1.source = source ∧ ((episodes host start requests).flatMap (·.calls)).countP hasFetched =
      after.1.fetched.isClosed.toNat := by
  intro start after
  let invariant : Repository × Workspace → Prop := fun state =>
    state.1.source = source ∧ state.2.calls.countP hasFetched =
      state.1.fetched.isClosed.toNat + workspace.calls.countP hasFetched
  have hstart : invariant start := ⟨rfl, (Nat.zero_add _).symm⟩
  have hafter : invariant after := by
    refine invariant_serveAll invariant hstart fun request state hstate => ?_
    obtain ⟨hsource, hcount⟩ := hstate
    obtain ⟨calls, hcalls, htally, -⟩ := ensures_tallies request hgit hsource hnetwork
    have hcalls : (request.serve.carryOut host state.1 state.2).2.2.calls =
        calls.reverse ++ state.2.calls := hcalls
    have htally : calls.countP hasFetched + state.1.fetched.isClosed.toNat =
        (request.serve.carryOut host state.1 state.2).2.1.fetched.isClosed.toNat := htally
    refine ⟨(request.keepsSource_serve host state).trans hsource, ?_⟩
    rw [hcalls, List.countP_append, List.countP_reverse, hcount, ← htally, Nat.add_assoc]
  refine ⟨hafter.1, ?_⟩
  have hcount := hafter.2
  rw [calls_serveAll, List.countP_append, List.countP_reverse] at hcount
  exact Nat.add_right_cancel hcount

/-- At most one call of a run has fetched. -/
theorem countP_hasFetched_episodes_le (commit : String) (workspace : Workspace)
    (requests : List Request) (hgit : host.git = some git) (hnetwork : source.isNetwork = true) :
    ((episodes host ({ source, commit }, workspace) requests).flatMap (·.calls)).countP
      hasFetched ≤ 1 := by
  rw [(countP_hasFetched_serveAll commit workspace requests hgit hnetwork).2]
  exact Bool.toNat_le _

/-- An episode of a run fetches unless one of the calls before it has. -/
theorem fetchesUnless_of_earlier {commit : String} {workspace : Workspace}
    {requests : List Request} {earlier later : List Episode} {episode : Episode}
    (hgit : host.git = some git) (hnetwork : source.isNetwork = true)
    (hsplit : episodes host ({ source, commit }, workspace) requests =
      earlier ++ episode :: later) :
    episode.FetchesUnless source host
      (∃ call ∈ earlier.flatMap (·.calls), hasFetched call = true) := by
  have hepisodes : ∀ episode ∈ episodes host ({ source, commit }, workspace) requests,
      episode.FetchesUnless source host (episode.start.1.fetched.isClosed = true) := by
    refine forall_mem_episodes (fun state => state.1.source = source) rfl
      fun request _ state hstate => ?_
    have hkept := (request.keepsSource_serve host state).trans hstate
    exact ((ensures_tallies request hgit hstate hnetwork).mono fun _ _ _ h => h.2).and_after hkept
  obtain ⟨served, rfl, hstart⟩ := exists_requests_of_split hsplit
  have hcount := (countP_hasFetched_serveAll commit workspace served hgit hnetwork).2
  rw [← hstart] at hcount
  have hclosed : episode.start.1.fetched.isClosed = true ↔
      ∃ call ∈ (episodes host ({ source, commit }, workspace) served).flatMap (·.calls),
        hasFetched call = true := by
    rw [← List.countP_pos_iff, hcount]
    cases episode.start.1.fetched.isClosed <;> simp
  rw [← propext hclosed]
  exact hepisodes episode (by simp [hsplit])

/-- Over every run with a repository that is reached over a network, whatever git answers, at most
one fetch succeeds. The two requests that fetch do so exactly until one has succeeded, and then
before anything else; the others never do. -/
theorem fetchesUnless_of_split {git : Git} {environment : Environment} {commit : String}
    {workspace : Workspace} {requests : List Request} (hnetwork : source.isNetwork = true) :
    let host : Host := ⟨some git, environment⟩
    let run := episodes host ({ source, commit }, workspace) requests
    (run.flatMap (·.calls)).countP hasFetched ≤ 1 ∧
      ∀ earlier episode later, run = earlier ++ episode :: later →
        episode.FetchesUnless source host
          (∃ call ∈ earlier.flatMap (·.calls), hasFetched call = true) := by
  intro host run
  have hgit : host.git = some git := rfl
  exact ⟨countP_hasFetched_episodes_le commit workspace requests hgit hnetwork,
    fun _ _ _ hsplit => fetchesUnless_of_earlier hgit hnetwork hsplit⟩

/-- A run in which the first fetch fails: the next request fetches again, and the one after it does
not. -/
theorem fetchesUnless_of_failed_fetch :
    let git : Git := fun calls files _ => .ok (⟨if calls.isEmpty then 1 else 0, [], []⟩, files)
    let run := episodes ⟨some git, ⟨[]⟩⟩ ({ source := .remote "url" }, { files := {} })
      [.update ⟨"/"⟩ "HEAD", .fetchFile ⟨"/"⟩ "a" ⟨"/b"⟩, .update ⟨"/"⟩ "HEAD"]
    run.map (fun episode =>
          (episode.calls.filter (·.arguments = fetchArguments)).map (·.succeeded)) =
        [[false], [true], []] ∧
      (run.flatMap (·.calls)).countP hasFetched ≤ 1 := by
  intro git run
  exact ⟨by decide +kernel, (fetchesUnless_of_split rfl).1⟩

end WorkingCopies.Repository
