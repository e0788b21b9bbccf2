import WorkingCopies.Proofs.Repository.Episode
import WorkingCopies.Proofs.Repository.FetchFirst
import WorkingCopies.Proofs.WorkingCopy.Merge

/-!
# The merge in an update

An update merges between two checkouts. It fails for the fetch and the checkouts alone, and its
merge is one for its reference as it is then known.
-/

namespace WorkingCopies

open Git (Call)
open Reference (Kind classify)

variable {host : Host} {git other : Git} {environment : Environment} {before : Workspace}
  {workingCopy : Path} {reference : String} {alike : Git.View → Git.View → Prop}

namespace Repository

variable {repository : Repository}

/-- An update of a network repository fetches, merges between two checkouts, and stops where one of
the three fails. -/
theorem outcome_update (hnetwork : repository.source.isNetwork = true) :
    Action.outcome (update workingCopy reference) host (repository, before) =
      Action.outcome (fetch workingCopy >>= fun _ =>
        Task.ofOperation (checkoutAndMerge workingCopy reference) >>= fun _ =>
          Task.ofOperation (checkout workingCopy reference)) host (repository, before) := by
  obtain ⟨source, commit, latch⟩ := repository
  cases source with
  | folder path => cases hnetwork
  | hosted hosted => rfl
  | remote url => rfl

/-- An update comes to the same with two gits that agree on all commands but merges. -/
theorem inStep_update (h : Git.AgreeButForMerges alike git other) :
    InStep (SameRepository (SameCommands alike)) Eq ⟨some git, environment⟩
      ⟨some other, environment⟩
      (fetch workingCopy >>= fun _ =>
        Task.ofOperation (checkoutAndMerge workingCopy reference) >>= fun _ =>
          Task.ofOperation (checkout workingCopy reference))
      (fetch workingCopy >>= fun _ =>
        Task.ofOperation (checkoutAndMerge workingCopy reference) >>= fun _ =>
          Task.ofOperation (checkout workingCopy reference)) := by
  have hfetch : InStep (SameRepository (SameCommands alike)) Eq ⟨some git, environment⟩
      ⟨some other, environment⟩ (fetch workingCopy) (fetch workingCopy) :=
    .fetch fun source => h.inStep (by decide) (madeOf_fetchFrom source)
  have hcheckout : InStep (SameCommands alike) Eq ⟨some git, environment⟩
      ⟨some other, environment⟩ (checkout workingCopy reference)
      (checkout workingCopy reference) := h.inStep (by decide) (madeOf_checkout reference)
  exact .bind hfetch fun _ _ _ => .bind h.inStep_checkoutAndMerge.ofOperation fun _ _ _ =>
    hcheckout.ofOperation

/-- Where an update ends that consists of a fetch, a checkout with a merge behind it and a last
checkout: with the first of them that fails, or with the last one. -/
inductive UpdateEnds (fetched : Except Failure Unit × Repository × Workspace)
    (first last : Except Failure Unit × Workspace) :
    Except Failure Unit × Repository × Workspace → Prop where
  | fetching {failure : Failure} (hfetched : fetched.1 = .error failure) :
      UpdateEnds fetched first last (.error failure, fetched.2)
  | checking {failure : Failure} (hfetched : fetched.1 = .ok ()) (hfirst : first.1 = .error failure) :
      UpdateEnds fetched first last (.error failure, fetched.2.1, first.2)
  | ending (hfetched : fetched.1 = .ok ()) (hfirst : first.1 = .ok ()) :
      UpdateEnds fetched first last (last.1, fetched.2.1, last.2)

/-- The parts of an update say where it ends. -/
theorem updateEnds (hgit : host.git = some git) (hnetwork : repository.source.isNetwork = true) :
    let fetched := (fetch workingCopy).carryOut host repository before
    let first := (checkout workingCopy reference).carryOut host fetched.2.2
    let merged := (tryMerge workingCopy reference).carryOut host first.2
    let last := (checkout workingCopy reference).carryOut host merged.2
    UpdateEnds fetched first last ((update workingCopy reference).carryOut host repository before) := by
  intro fetched first merged last
  show UpdateEnds fetched first last
    (Action.outcome (update workingCopy reference) host (repository, before))
  rw [outcome_update hnetwork]
  cases hfetched : fetched.1 with
  | error failure =>
    rw [outcome_bind_of_error hfetched]
    exact .fetching hfetched
  | ok _ =>
    rw [outcome_bind_of_ok hfetched]
    show UpdateEnds fetched first last (Action.outcome
      (Task.ofOperation (checkoutAndMerge workingCopy reference) >>= fun _ =>
        Task.ofOperation (checkout workingCopy reference)) host fetched.2)
    cases hfirst : first.1 with
    | error failure =>
      have hboth : Action.outcome (Task.ofOperation (checkoutAndMerge workingCopy reference)) host
          fetched.2 = (.error failure, fetched.2.1, first.2) :=
        (Task.carryOut_ofOperation _ host fetched.2.1 fetched.2.2).trans
          (by rw [carryOut_checkoutAndMerge_of_error hfirst])
      rw [outcome_bind_of_error (congrArg Prod.fst hboth), hboth]
      exact .checking hfetched hfirst
    | ok _ =>
      have hboth : Action.outcome (Task.ofOperation (checkoutAndMerge workingCopy reference)) host
          fetched.2 = (.ok (), fetched.2.1, merged.2) :=
        (Task.carryOut_ofOperation _ host fetched.2.1 fetched.2.2).trans
          (by rw [carryOut_checkoutAndMerge_of_ok hgit hfirst])
      rw [outcome_bind_of_ok (congrArg Prod.fst hboth), hboth]
      exact .ending hfetched hfirst

/-- How an update comes of its parts: the fetch, the two checkouts and the merge that is tried between
them. -/
def UpdatesByParts (host : Host) (repository : Repository) (before : Workspace)
    (workingCopy : Path) (reference : String) : Prop :=
  let fetched := (fetch workingCopy).carryOut host repository before
  let first := (checkout workingCopy reference).carryOut host fetched.2.2
  let merged := (tryMerge workingCopy reference).carryOut host first.2
  let last := (checkout workingCopy reference).carryOut host merged.2
  let updated := (update workingCopy reference).carryOut host repository before
  let fetching := fetched.2.2.callsSince before
  let checking := first.2.callsSince fetched.2.2
  let merging := merged.2.callsSince first.2
  let ending := last.2.callsSince merged.2
  (updated.1 = .ok () ↔ fetched.1 = .ok () ∧ first.1 = .ok () ∧ last.1 = .ok ()) ∧
    updated.2.2.callsSince before = fetching ++ (if fetched.1 = .ok () then
      checking ++ (if first.1 = .ok () then merging ++ ending else []) else []) ∧
    (∀ call ∈ fetching ++ checking ++ ending, call.isMerge = false) ∧
    merging.countP Call.isMerge ≤ 1

/-- Every update of a network repository comes of its parts. -/
theorem updatesByParts (hgit : host.git = some git) (hnetwork : repository.source.isNetwork = true) :
    UpdatesByParts host repository before workingCopy reference := by
  unfold UpdatesByParts
  intro fetched first merged last updated fetching checking merging ending
  have hcheckout (workspace : Workspace) :
      Ensures (checkout workingCopy reference) host workspace fun _ calls _ =>
        ∀ call ∈ calls, call.isMerge = false :=
    (makes_checkout reference host workspace).mono fun _ _ _ hcalls call hcall =>
      isMerge_eq_false (hcalls call hcall) (by decide)
  have hfetch : Ensures (fetch workingCopy) host (repository, before) fun _ calls _ =>
      ∀ call ∈ calls, call.isMerge = false :=
    (makes_fetch host (repository, before)).mono fun _ _ _ hcalls call hcall =>
      isMerge_eq_false (hcalls call hcall) (by decide)
  have hmerge : Ensures (tryMerge workingCopy reference) host first.2 _ := ensures_tryMerge hgit
  obtain ⟨fetchCalls, hfetchCalls, hfetchOther⟩ := hfetch
  obtain ⟨firstCalls, hfirstCalls, hfirstOther⟩ := hcheckout fetched.2.2
  obtain ⟨mergeCalls, hmergeCalls, htries⟩ := hmerge
  have honce := htries.once
  obtain ⟨lastCalls, hlastCalls, hlastOther⟩ := hcheckout merged.2
  have hfetchCalls : fetched.2.2.calls = fetchCalls.reverse ++ before.calls := hfetchCalls
  have hfirstCalls : first.2.calls = firstCalls.reverse ++ fetched.2.2.calls := hfirstCalls
  have hmergeCalls : merged.2.calls = mergeCalls.reverse ++ first.2.calls := hmergeCalls
  have hlastCalls : last.2.calls = lastCalls.reverse ++ merged.2.calls := hlastCalls
  have hfetchSince : fetched.2.2.callsSince before = fetchCalls :=
    Workspace.callsSince_eq hfetchCalls
  have hfetching : fetching = fetchCalls := hfetchSince
  have hchecking : checking = firstCalls := Workspace.callsSince_eq hfirstCalls
  have hmerging : merging = mergeCalls := Workspace.callsSince_eq hmergeCalls
  have hending : ending = lastCalls := Workspace.callsSince_eq hlastCalls
  have hends : UpdateEnds fetched first last updated := updateEnds hgit hnetwork
  have hother : ∀ call ∈ fetchCalls ++ firstCalls ++ lastCalls, call.isMerge = false := by
    simp only [List.forall_mem_append]
    exact ⟨⟨hfetchOther, hfirstOther⟩, hlastOther⟩
  have hfirstSince : first.2.callsSince before = fetchCalls ++ firstCalls :=
    Workspace.callsSince_eq (by simp [hfirstCalls, hfetchCalls])
  have hlastSince : last.2.callsSince before =
      fetchCalls ++ (firstCalls ++ (mergeCalls ++ lastCalls)) :=
    Workspace.callsSince_eq (by simp [hlastCalls, hmergeCalls, hfirstCalls, hfetchCalls])
  rw [hfetching, hchecking, hmerging, hending]
  clear_value updated
  cases hends with
  | fetching hfetched =>
    exact ⟨by simp [hfetched], by simpa [hfetched] using hfetchSince, hother, honce⟩
  | checking hfetched hfirst =>
    exact ⟨by simp [hfirst], by simpa [hfetched, hfirst] using hfirstSince, hother, honce⟩
  | ending hfetched hfirst =>
    exact ⟨by simp [hfetched, hfirst], by simpa [hfetched, hfirst] using hlastSince, hother, honce⟩

/-- Whether nothing but the log tells what comes of the merges: with every git that agrees on all
other commands, a checkout with a merge and an update come to the same by the same commands. -/
def BlindToMerges (git : Git) (environment : Environment) (repository : Repository)
    (before : Workspace) (workingCopy : Path) (reference : String) : Prop :=
  ∀ (alike : Git.View → Git.View → Prop) (other : Git), Git.AgreeButForMerges alike git other →
    alike before.view before.view →
      let checked (git : Git) :=
        (checkoutAndMerge workingCopy reference).carryOut ⟨some git, environment⟩ before
      let updated (git : Git) :=
        (update workingCopy reference).carryOut ⟨some git, environment⟩ repository before
      (checked git).1 = (checked other).1 ∧
        (checked git).2.calls.map (·.command) = (checked other).2.calls.map (·.command) ∧
        (updated git).1 = (updated other).1 ∧
        (updated git).2.2.calls.map (·.command) = (updated other).2.2.calls.map (·.command)

/-- Every update of a network repository is blind to its merges. -/
theorem blindToMerges (hnetwork : repository.source.isNetwork = true) :
    BlindToMerges git environment repository before workingCopy reference := by
  intro alike other hagree hbefore checked updated
  have hsame : SameCommands alike before before := ⟨hbefore, rfl⟩
  have hcheck : InStep (SameCommands alike) Eq ⟨some git, environment⟩ ⟨some other, environment⟩
      (checkoutAndMerge workingCopy reference) (checkoutAndMerge workingCopy reference) :=
    hagree.inStep_checkoutAndMerge
  obtain ⟨hchecked, -, hcheckedCalls⟩ := hcheck before before hsame
  obtain ⟨hupdated, -, -, hupdatedCalls⟩ :=
    inStep_update hagree (repository, before) (repository, before) ⟨rfl, hsame⟩
  rw [← outcome_update hnetwork, ← outcome_update hnetwork] at hupdated hupdatedCalls
  exact ⟨resultsAgree_eq_iff.mp hchecked, hcheckedCalls, resultsAgree_eq_iff.mp hupdated,
    hupdatedCalls⟩

/-- Whatever git answers, and whatever the reference is, nothing but the log tells what comes of the
merge in an update of a network repository. A checkout with a merge comes to what the checkout comes
to, an update comes of its parts, and the merge is one of what the reference is then known for. -/
theorem update_bestEffort (hnetwork : repository.source.isNetwork = true) :
    let host : Host := ⟨some git, environment⟩
    BlindToMerges git environment repository before workingCopy reference ∧
      ((checkoutAndMerge workingCopy reference).carryOut host before).1 =
        ((checkout workingCopy reference).carryOut host before).1 ∧
      UpdatesByParts host repository before workingCopy reference ∧
      ∀ workspace : Workspace,
        let merged := (tryMerge workingCopy reference).carryOut host workspace
        TriesMerge workingCopy reference
          ((classify workingCopy reference).carryOut host workspace).1 merged.1
          (merged.2.callsSince workspace) := by
  intro host
  have hgit : host.git = some git := rfl
  refine ⟨blindToMerges hnetwork, result_checkoutAndMerge hgit, updatesByParts hgit hnetwork, ?_⟩
  intro workspace merged
  have htries : Ensures (tryMerge workingCopy reference) host workspace _ := ensures_tryMerge hgit
  obtain ⟨calls, hcalls, htries⟩ := htries
  have hsince : merged.2.callsSince workspace = calls := Workspace.callsSince_eq hcalls
  rw [hsince]
  exact htries

/-- A git that merges, one that fails every merge and one that the system refuses to start for a merge:
the update succeeds with each of them, by the same commands. -/
theorem update_bestEffort_of_failing_merge :
    let git (answer : Except String Git.Reply) : Git := fun _ files request =>
      if request.arguments.head? = some "merge" then answer.map (·, files) else .ok ({}, files)
    let updated (answer : Except String Git.Reply) := (update ⟨"/"⟩ "main").carryOut
      ⟨some (git answer), ⟨[]⟩⟩ { source := .remote "url" } { files := {} }
    let commands (answer : Except String Git.Reply) := (updated answer).2.2.calls.map (·.command)
    let merges (answer : Except String Git.Reply) :=
      ((updated answer).2.2.calls.filter (·.isMerge)).map fun call => (call.started, call.succeeded)
    let merged : Except String Git.Reply := .ok {}
    let failed : Except String Git.Reply := .ok { status := 1 }
    let refused : Except String Git.Reply := .error "Cannot allocate memory (os error 12)"
    (updated merged).1 = .ok () ∧ (updated failed).1 = .ok () ∧ (updated refused).1 = .ok () ∧
      commands failed = commands merged ∧ commands refused = commands merged ∧
      merges merged = [(true, true)] ∧ merges failed = [(true, false)] ∧
      merges refused = [(false, false)] := by
  intro git updated commands merges merged failed refused
  have hleave (answer : Except String Git.Reply) (calls : List Call) (files : FileSystem)
      (request : Git.Request) : (git answer).leave calls files request = files := by
    unfold Git.leave
    by_cases hmerge : request.arguments.head? = some "merge"
    · cases answer <;> simp [git, hmerge, Except.map]
    · simp [git, hmerge]
  have hkeeps (answer : Except String Git.Reply) (workspace : Workspace) (folder : Option Path)
      (arguments : List String) :
      ((git answer).attempt workspace folder arguments).after = workspace.files := by
    rcases (git answer).after_attempt workspace folder arguments with hafter | ⟨location, hafter⟩
    · exact hafter
    · rw [hafter, hleave]
  have hagree (answer : Except String Git.Reply) :
      Git.AgreeButForMerges (fun view view' => view.2 = view'.2) (git merged) (git answer) := by
    constructor
    · intro first second folder arguments hfiles hmerge
      have hfiles : first.files = second.files := hfiles
      unfold Git.attempt Git.comesTo
      rw [hfiles]
      cases Git.startingFolder second.files folder arguments with
      | error fault => rfl
      | ok location => simp [git, hmerge]
    · intro first second folder arguments hfiles
      have hfiles : first.files = second.files := hfiles
      exact (hkeeps merged first folder arguments).trans
        (hfiles.trans (hkeeps answer second folder arguments).symm)
  have hblind : BlindToMerges (git merged) ⟨[]⟩ { source := .remote "url" } { files := {} } ⟨"/"⟩
      "main" := (update_bestEffort rfl).1
  obtain ⟨-, -, hfailed, hfailedCommands⟩ := hblind _ (git failed) (hagree failed) rfl
  obtain ⟨-, -, hrefused, hrefusedCommands⟩ := hblind _ (git refused) (hagree refused) rfl
  have hmerged : (updated merged).1 = .ok () := by decide +kernel
  exact ⟨hmerged, hfailed.symm.trans hmerged, hrefused.symm.trans hmerged, hfailedCommands.symm,
    hrefusedCommands.symm, by decide +kernel, by decide +kernel, by decide +kernel⟩

end Repository

end WorkingCopies
