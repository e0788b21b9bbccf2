import WorkingCopies.Proofs.Repository.FetchOnce

/-!
# The working copy that was fetched

The latch belongs to the repository and not to one of its working copies. What is shown from a
working copy, checked out or merged in it comes behind a fetch that succeeded, and there is no more
than one in a run. That one was made in the working copy of the request that made it, be it this one
or another: the others are read and updated as they are.
-/

namespace WorkingCopies.Repository

open Git (Call)

variable {source : Source} {host : Host} {workingCopy : Path} {episode : Episode} {call : Call}
  {isFetched : Prop}

/-- Whether one of some calls has fetched in a working copy. -/
def FetchedIn (workingCopy : Path) (calls : List Call) : Prop :=
  ∃ call ∈ calls, hasFetched call = true ∧ call.folder = some workingCopy

instance (workingCopy : Path) (calls : List Call) : Decidable (FetchedIn workingCopy calls) :=
  inferInstanceAs (Decidable (∃ call ∈ calls, hasFetched call = true ∧ _))

/-- The commands that show what a working copy has fetched, check it out or merge it. -/
def useCommands : List String := ["show", "checkout", "merge"]

/-- Whether a call names one of these commands. -/
def IsUse (call : Call) : Prop := ∃ name ∈ useCommands, call.arguments.head? = some name

/-- All calls of a fetch are made in the working copy, for the fetch itself or to set the origin. -/
theorem FetchStep.names {urls : RemoteUrls} {password : String} {result : Except Failure Unit}
    {calls : List Call} (h : FetchStep urls password workingCopy result calls) :
    ∀ call ∈ calls, call.Names workingCopy fetchCommands := by
  have hset {set : Call} {url : String}
      (hset : set.Runs (Origin.setUrlWithin workingCopy url password)) :
      set.Names workingCopy fetchCommands :=
    Origin.names_of_arguments_eq_setUrl (by decide) (Origin.of_runs_setUrlWithin hset)
  have hrun {run : Call} (hrun : run.Runs (fetchCommand.within workingCopy)) :
      run.Names workingCopy fetchCommands := by
    have harguments : run.arguments = fetchArguments := by
      rw [hrun.arguments, Git.Command.map_text_plain_within]
    exact ⟨hrun.folder, "fetch", by decide, by rw [harguments]; rfl⟩
  obtain ⟨output, -, hstep⟩ := h
  split at hstep
  · obtain ⟨set, hfirst, ⟨-, rfl, -⟩ | ⟨-, run, back, hfetch, hlast, rfl, -⟩⟩ := hstep
    · simpa using hset hfirst
    · simpa using ⟨hset hfirst, hrun hfetch, hset hlast⟩
  · obtain ⟨run, hfetch, rfl, -⟩ := hstep
    simpa using hrun hfetch

namespace Episode.FetchesUnless

/-- A call that has fetched was made in the working copy that its request fetches into. -/
theorem folder_of_hasFetched (h : episode.FetchesUnless source host isFetched)
    (hcall : call ∈ episode.calls) (hfetched : hasFetched call = true) :
    ∃ workingCopy, episode.request.fetchedInto? = some workingCopy ∧
      call.folder = some workingCopy := by
  cases hrequest : episode.request.fetchedInto? with
  | none =>
    rw [hasFetched_eq_false ((h.leaves hrequest).1 call hcall)] at hfetched
    cases hfetched
  | some workingCopy =>
    refine ⟨workingCopy, rfl, ?_⟩
    by_cases his : isFetched
    · exact (h.skips workingCopy hrequest his call hcall).1
    · obtain ⟨result, first, rest, hcalls, hfetches⟩ := h.fetches workingCopy hrequest his
      rw [hcalls] at hcall
      rcases List.mem_append.mp hcall with hfirst | hrest
      · exact (hfetches.step.names call hfirst).1
      · exact (hfetches.commands call hrest).1

/-- What a request uses of a working copy comes behind a fetch: behind one that succeeded before the
request, or else behind one in this working copy. -/
theorem fetchedIn_of_isUse (h : episode.FetchesUnless source host isFetched)
    (hrequest : episode.request.fetchedInto? = some workingCopy) {before after : List Call}
    (hsplit : episode.calls = before ++ call :: after) (huse : IsUse call) :
    call.folder = some workingCopy ∧ (isFetched ∨ FetchedIn workingCopy before) := by
  have hcall : call ∈ episode.calls := by simp [hsplit]
  by_cases his : isFetched
  · exact ⟨(h.skips workingCopy hrequest his call hcall).1, .inl his⟩
  · obtain ⟨result, first, rest, hcalls, hfetches⟩ := h.fetches workingCopy hrequest his
    have hfirst : call ∉ first := by
      intro hmem
      obtain ⟨-, name, hname, hhead⟩ := hfetches.step.names call hmem
      obtain ⟨other, hother, hsame⟩ := huse
      obtain rfl : name = other := Option.some.inj (hhead.symm.trans hsame)
      have hdisjoint : ∀ name ∈ fetchCommands, name ∉ useCommands := by decide
      exact hdisjoint name hname hother
    -- the calls of the fetch stand before the call, as it is not one of them
    have hprefix : ∃ between, before = first ++ between ∧ rest = between ++ call :: after := by
      rcases List.append_eq_append_iff.mp (hsplit.symm.trans hcalls) with
        ⟨more, hmore, hrest⟩ | ⟨between, hbefore, hrest⟩
      · cases more with
        | nil => exact ⟨[], by simpa using hmore.symm, by simpa using hrest.symm⟩
        | cons other more =>
          obtain ⟨rfl, -⟩ := List.cons.inj hrest
          exact absurd (by simp [hmore]) hfirst
      · exact ⟨between, hbefore, hrest⟩
    obtain ⟨between, rfl, rfl⟩ := hprefix
    have hsucceeded : result = .ok () := by
      cases result with
      | ok _ => rfl
      | error failure =>
        obtain ⟨_, -, hfails⟩ := hfetches.fails
        exact absurd (hfails failure rfl).1 (by simp)
    obtain ⟨fetch, hfetch, hfetched⟩ := hfetches.succeeds.mp hsucceeded
    refine ⟨(hfetches.commands call (by simp)).1, .inr ⟨fetch, ?_, hfetched, ?_⟩⟩
    · exact List.mem_append_left between hfetch
    · exact (hfetches.step.names fetch hfetch).1

end Episode.FetchesUnless

/-- Where no more than one call has fetched, no more than one working copy has been fetched. -/
theorem FetchedIn.unique {calls : List Call} {first second : Path}
    (hcount : calls.countP hasFetched ≤ 1) (hfirst : FetchedIn first calls)
    (hsecond : FetchedIn second calls) : first = second := by
  obtain ⟨call, hcall, hfetched, hfolder⟩ := hfirst
  obtain ⟨other, hother, hotherFetched, hotherFolder⟩ := hsecond
  have hcall : call ∈ calls.filter hasFetched := List.mem_filter.mpr ⟨hcall, hfetched⟩
  have hother : other ∈ calls.filter hasFetched := List.mem_filter.mpr ⟨hother, hotherFetched⟩
  rw [List.countP_eq_length_filter] at hcount
  generalize calls.filter hasFetched = fetches at hcount hcall hother
  have hsame : call = other := by
    cases fetches with
    | nil => cases hcall
    | cons fetch more =>
      have hmore : more = [] := by simpa using hcount
      rw [hmore] at hcall hother
      rw [List.mem_singleton.mp hcall, List.mem_singleton.mp hother]
  rw [hsame, hotherFolder] at hfolder
  exact (Option.some.inj hfolder).symm

/-- Whether everything that the requests of a run use of a working copy comes behind a fetch that
succeeded in this very working copy. -/
def UsesFetched (run : List Episode) : Prop :=
  ∀ earlier episode later, run = earlier ++ episode :: later →
    ∀ workingCopy, episode.request.fetchedInto? = some workingCopy →
      ∀ before call after, episode.calls = before ++ call :: after → IsUse call →
        FetchedIn workingCopy (earlier.flatMap (·.calls) ++ before)

/-- Of two working copies that are updated in turn, the first one is fetched and the second one is
not, though a reference is checked out in it. -/
theorem exists_use_of_two_copies :
    let git : Git := fun _ files _ => .ok ({}, files)
    let files : FileSystem := { entries := [(["v"], .folder), (["w"], .folder)] }
    ∃ first second call after,
      episodes ⟨some git, ⟨[]⟩⟩ ({ source := .remote "url" }, { files })
        [.update ⟨"/v"⟩ "HEAD", .update ⟨"/w"⟩ "HEAD"] = [first, second] ∧
      second.request.fetchedInto? = some ⟨"/w"⟩ ∧ second.calls = call :: after ∧ IsUse call ∧
      FetchedIn ⟨"/v"⟩ first.calls ∧ ¬ FetchedIn ⟨"/w"⟩ first.calls := by
  intro git files
  generalize hrun : episodes ⟨some git, ⟨[]⟩⟩ ({ source := .remote "url" }, { files })
    [.update ⟨"/v"⟩ "HEAD", .update ⟨"/w"⟩ "HEAD"] = run
  have hepisodes : run.map (fun episode => (episode.request.fetchedInto?,
        episode.calls.head?.map (·.arguments), decide (FetchedIn ⟨"/v"⟩ episode.calls),
        decide (FetchedIn ⟨"/w"⟩ episode.calls))) =
      [(some ⟨"/v"⟩, some ["fetch", "--tags"], true, false),
        (some ⟨"/w"⟩, some ["checkout", "HEAD"], false, false)] := by
    rw [← hrun]
    decide +kernel
  clear hrun
  obtain ⟨first, rest, rfl, hfirst, hrest⟩ := List.map_eq_cons_iff.mp hepisodes
  obtain ⟨second, none, rfl, hsecond, hnone⟩ := List.map_eq_cons_iff.mp hrest
  obtain rfl := List.map_eq_nil_iff.mp hnone
  have hfetched : FetchedIn ⟨"/v"⟩ first.calls := of_decide_eq_true (congrArg (·.2.2.1) hfirst)
  have hunfetched : ¬ FetchedIn ⟨"/w"⟩ first.calls :=
    of_decide_eq_false (congrArg (·.2.2.2) hfirst)
  have hrequest : second.request.fetchedInto? = some ⟨"/w"⟩ := congrArg (·.1) hsecond
  have hhead : second.calls.head?.map (·.arguments) = some ["checkout", "HEAD"] :=
    congrArg (·.2.1) hsecond
  obtain ⟨call, hcall, harguments⟩ := Option.map_eq_some_iff.mp hhead
  obtain ⟨after, hcalls⟩ := List.head?_eq_some_iff.mp hcall
  have huse : IsUse call := ⟨"checkout", by decide, by rw [harguments]; rfl⟩
  exact ⟨first, second, call, after, rfl, hrequest, hcalls, huse, hfetched, hunfetched⟩

/-- What is used of a working copy need not come behind a fetch in this very working copy. -/
theorem uses_unfetched_copy :
    let git : Git := fun _ files _ => .ok ({}, files)
    let files : FileSystem := { entries := [(["v"], .folder), (["w"], .folder)] }
    ¬ UsesFetched (episodes ⟨some git, ⟨[]⟩⟩ ({ source := .remote "url" }, { files })
      [.update ⟨"/v"⟩ "HEAD", .update ⟨"/w"⟩ "HEAD"]) := by
  intro git files huses
  obtain ⟨first, second, call, after, hrun, hrequest, hcalls, huse, -, hunfetched⟩ :=
    exists_use_of_two_copies
  have hfetched := huses [first] second [] hrun ⟨"/w"⟩ hrequest [] call after hcalls huse
  exact hunfetched (by simpa using hfetched)

section Run

variable {git : Git} {environment : Environment} {commit : String} {workspace : Workspace}
  {requests : List Request} {earlier later : List Episode}

/-- A call of a run that has fetched was made in the working copy that its request fetches into. -/
theorem folder_of_mem_episodes (hgit : host.git = some git) (hnetwork : source.isNetwork = true)
    (hepisode : episode ∈ episodes host ({ source, commit }, workspace) requests)
    (hcall : call ∈ episode.calls) (hfetched : hasFetched call = true) :
    ∃ workingCopy, episode.request.fetchedInto? = some workingCopy ∧
      call.folder = some workingCopy := by
  obtain ⟨earlier, later, hsplit⟩ := List.append_of_mem hepisode
  exact (fetchesUnless_of_earlier hgit hnetwork hsplit).folder_of_hasFetched hcall hfetched

/-- No more than one of the calls before some call of a run has fetched. -/
theorem countP_hasFetched_before_le (hgit : host.git = some git)
    (hnetwork : source.isNetwork = true) {before after : List Call}
    (hsplit : episodes host ({ source, commit }, workspace) requests =
      earlier ++ episode :: later) (hcalls : episode.calls = before ++ after) :
    (earlier.flatMap (·.calls) ++ before).countP hasFetched ≤ 1 := by
  have hall := countP_hasFetched_episodes_le commit workspace requests hgit hnetwork
  have hrun : (earlier ++ episode :: later).flatMap (·.calls) =
      earlier.flatMap (·.calls) ++ before ++ (after ++ later.flatMap (·.calls)) := by
    rw [List.flatMap_append, List.flatMap_cons, hcalls]
    simp
  rw [hsplit, hrun, List.countP_append] at hall
  omega

/-- What a request of a run uses of a working copy comes behind a call that has fetched, made for
this request or an earlier one. -/
theorem exists_fetcher (hgit : host.git = some git) (hnetwork : source.isNetwork = true)
    {before after : List Call}
    (hsplit : episodes host ({ source, commit }, workspace) requests =
      earlier ++ episode :: later)
    (hrequest : episode.request.fetchedInto? = some workingCopy)
    (hcalls : episode.calls = before ++ call :: after) (huse : IsUse call) :
    ∃ fetcher ∈ earlier ++ [episode], ∃ fetch ∈ fetcher.calls, hasFetched fetch = true ∧
      fetch ∈ earlier.flatMap (·.calls) ++ before := by
  obtain ⟨-, hbehind⟩ :=
    (fetchesUnless_of_earlier hgit hnetwork hsplit).fetchedIn_of_isUse hrequest hcalls huse
  rcases hbehind with ⟨fetch, hfetch, hfetched⟩ | ⟨fetch, hfetch, hfetched, -⟩
  · obtain ⟨fetcher, hfetcher, hmade⟩ := List.mem_flatMap.mp hfetch
    exact ⟨fetcher, List.mem_append_left _ hfetcher, fetch, hmade, hfetched,
      List.mem_append_left _ hfetch⟩
  · have hmade : fetch ∈ episode.calls := by
      rw [hcalls]
      exact List.mem_append_left _ hfetch
    exact ⟨episode, by simp, fetch, hmade, hfetched, List.mem_append_right _ hfetch⟩

/-- In a run with a repository that is reached over a network, whatever git answers, all that is
shown of a working copy, checked out or merged in it comes behind a fetch that succeeded, the only
one so far. It was made in the working copy of the request that made it, the same or an earlier one,
and in no other: it is this working copy unless an earlier request fetched into another one. -/
theorem used_behind_fetch (hnetwork : source.isNetwork = true) :
    let run := episodes ⟨some git, environment⟩ ({ source, commit }, workspace) requests
    ∀ earlier episode later, run = earlier ++ episode :: later →
      ∀ workingCopy, episode.request.fetchedInto? = some workingCopy →
        ∀ before call after, episode.calls = before ++ call :: after → IsUse call →
          call.folder = some workingCopy ∧
            (∃ fetcher ∈ earlier ++ [episode], ∃ fetchedCopy,
              fetcher.request.fetchedInto? = some fetchedCopy ∧
                FetchedIn fetchedCopy fetcher.calls ∧
                ∀ other, FetchedIn other (earlier.flatMap (·.calls) ++ before) ↔
                  other = fetchedCopy) ∧
            ((∀ request ∈ earlier.map (·.request), ∀ other, request.fetchedInto? = some other →
                other = workingCopy) →
              FetchedIn workingCopy (earlier.flatMap (·.calls) ++ before)) := by
  intro run earlier episode later hsplit workingCopy hrequest before call after hcalls huse
  have hgit : (⟨some git, environment⟩ : Host).git = some git := rfl
  have hfolder : call.folder = some workingCopy :=
    ((fetchesUnless_of_earlier hgit hnetwork hsplit).fetchedIn_of_isUse hrequest hcalls huse).1
  obtain ⟨fetcher, hfetcher, fetch, hmade, hfetched, hfetch⟩ :=
    exists_fetcher hgit hnetwork hsplit hrequest hcalls huse
  have hmember : fetcher ∈ run := by
    rw [hsplit, List.append_cons]
    exact List.mem_append_left later hfetcher
  obtain ⟨fetchedCopy, hinto, hfetchFolder⟩ :=
    folder_of_mem_episodes hgit hnetwork hmember hmade hfetched
  have hfetchedIn : FetchedIn fetchedCopy (earlier.flatMap (·.calls) ++ before) :=
    ⟨fetch, hfetch, hfetched, hfetchFolder⟩
  have honly (other : Path) :
      FetchedIn other (earlier.flatMap (·.calls) ++ before) ↔ other = fetchedCopy := by
    constructor
    · intro hother
      exact FetchedIn.unique (countP_hasFetched_before_le hgit hnetwork hsplit hcalls) hother
        hfetchedIn
    · intro hsame
      rw [hsame]
      exact hfetchedIn
  refine ⟨hfolder, ⟨fetcher, hfetcher, fetchedCopy, hinto, ⟨fetch, hmade, hfetched, hfetchFolder⟩,
    honly⟩, ?_⟩
  intro halways
  apply (honly workingCopy).mpr
  rcases List.mem_append.mp hfetcher with hearlier | hlast
  · exact (halways _ (List.mem_map_of_mem hearlier) _ hinto).symm
  · rw [List.mem_singleton.mp hlast, hrequest] at hinto
    exact Option.some.inj hinto

end Run

/-- Where two working copies are updated in turn, what is checked out in the second one comes behind
the fetch in the first one. -/
theorem used_behind_fetch_of_two_copies :
    let git : Git := fun _ files _ => .ok ({}, files)
    let files : FileSystem := { entries := [(["v"], .folder), (["w"], .folder)] }
    ∃ first second call after,
      episodes ⟨some git, ⟨[]⟩⟩ ({ source := .remote "url" }, { files })
        [.update ⟨"/v"⟩ "HEAD", .update ⟨"/w"⟩ "HEAD"] = [first, second] ∧
      second.calls = call :: after ∧ IsUse call ∧ call.folder = some ⟨"/w"⟩ ∧
      ∀ other, FetchedIn other first.calls ↔ other = ⟨"/v"⟩ := by
  intro git files
  obtain ⟨first, second, call, after, hrun, hrequest, hcalls, huse, hfetched, -⟩ :=
    exists_use_of_two_copies
  have hnetwork : (Source.remote "url").isNetwork = true := rfl
  obtain ⟨hfolder, ⟨-, -, fetchedCopy, -, -, honly⟩, -⟩ :=
    used_behind_fetch hnetwork [first] second [] hrun ⟨"/w"⟩ hrequest [] call after hcalls huse
  simp only [List.flatMap_cons, List.flatMap_nil, List.append_nil] at honly
  rw [← (honly ⟨"/v"⟩).mp hfetched] at honly
  exact ⟨first, second, call, after, hrun, hcalls, huse, hfolder, honly⟩

end WorkingCopies.Repository
