import WorkingCopies.Proofs.Git.View
import WorkingCopies.Proofs.Reference.Consult
import WorkingCopies.Proofs.Repository.FetchFirst
import WorkingCopies.Proofs.WorkingCopy.Merge

/-!
# Branches that are made for tags

A checkout of a tag makes a branch of its name. The probes that come before it have then found no
such branch, and nothing that comes after it removes the branch: from then on the name is known for
a local branch and is checked out as it stands.
-/

namespace WorkingCopies

open Git (Call Command)
open Reference (AnswersWhile Kind classify classify_head madeOf_classify makes_classify probeCommands
  qualify)

variable {host : Host} {git : Git} {before : Workspace} {workingCopy : Path}
  {branches : Git.View → Set String} {reference : String}

/-- The arguments that make a branch for a tag. -/
def creationArguments (reference : String) : List String :=
  ["checkout", qualify reference .tag, "-b", reference]

/-- No two tags have the same branch made for them. -/
theorem creationArguments_inj {reference other : String}
    (h : creationArguments reference = creationArguments other) : reference = other := by
  simp only [creationArguments, List.cons.injEq] at h
  exact h.2.2.2.1

/-- Whether a call is a checkout. -/
def Git.Call.isCheckout (call : Call) : Bool := call.arguments.head? = some "checkout"

/-- Whether a call has made a branch for a tag. -/
def Git.Call.hasCreated (reference : String) (call : Call) : Bool :=
  call.arguments = creationArguments reference && call.succeeded

/-- The arguments of the commands with which a working copy is kept up, the probes left aside: those
of a checkout, a merge, a fetch, and the setting of a URL. -/
def IsUpkeep (arguments : List String) : Prop :=
  (∃ reference, arguments ∈ checkoutArguments reference) ∨
    (∃ reference kind, arguments = mergeArguments reference kind) ∨
    arguments = Repository.fetchArguments ∨ ∃ url, arguments = Origin.setUrlArguments url

/-- What is assumed of a git that keeps branches in a working copy. The branches are read off what
the git can go by. -/
structure KeepsBranches (git : Git) (workingCopy : Path) (branches : Git.View → Set String) :
    Prop where
  /-- Probes change nothing. -/
  probes (workspace : Workspace) (arguments : List String) :
    (∃ name ∈ probeCommands, arguments.head? = some name) →
      branches (workspace.view.behind (git.attempt workspace (some workingCopy) arguments)) =
        branches workspace.view
  /-- The name of a branch leads to a commit. -/
  leads (workspace : Workspace) (name : String) : name ∈ branches workspace.view →
    (git.attempt workspace (some workingCopy) ["merge-base", name, name]).succeeded = true
  /-- A branch is found under its full name. -/
  found (workspace : Workspace) (name : String) : name ∈ branches workspace.view →
    (git.attempt workspace (some workingCopy)
      ["show-ref", "--verify", "--quiet", "refs/heads/" ++ name]).succeeded = true
  /-- Where a branch has been made for a tag there is one. -/
  creates (workspace : Workspace) (name : String) :
    let call := git.attempt workspace (some workingCopy) (creationArguments name)
    call.succeeded = true → name ∈ branches (workspace.view.behind call)
  /-- No command removes a branch. -/
  keeps (workspace : Workspace) (arguments : List String) : IsUpkeep arguments →
    branches workspace.view ⊆
      branches (workspace.view.behind (git.attempt workspace (some workingCopy) arguments))

/-- How a call treats the branches: none is lost, and one is made for a tag only where there is
none of that name. -/
structure TreatsBranches (branches : Git.View → Set String) (view : Git.View) (call : Call) :
    Prop where
  keeps : branches view ⊆ branches (view.behind call)
  absent : ∀ name, call.arguments = creationArguments name → name ≠ "HEAD" ∧ name ∉ branches view
  created : ∀ name, call.hasCreated name = true → name ∈ branches (view.behind call)

namespace TreatsBranches

variable {view : Git.View} {calls : List Call} {name : String}

/-- What makes no branch for a tag only has to keep the branches that there are. -/
theorem of_other {call : Call} (hkeeps : branches view ⊆ branches (view.behind call))
    (hother : ∀ name, call.arguments ≠ creationArguments name) :
    TreatsBranches branches view call := by
  refine ⟨hkeeps, fun name hname => absurd hname (hother name), fun name hcreated => ?_⟩
  simp [Call.hasCreated, hother name] at hcreated

/-- Along calls that treat the branches so, none is lost. -/
theorem subset_behindAll (h : view.Along (TreatsBranches branches) calls) :
    branches view ⊆ branches (view.behindAll calls) := by
  induction calls generalizing view with
  | nil => exact subset_rfl
  | cons call calls ih => exact h.1.keeps.trans (ih h.2)

/-- Where there is a branch none is made for the tag of its name. -/
theorem arguments_ne (h : view.Along (TreatsBranches branches) calls)
    (hbranch : name ∈ branches view) : ∀ call ∈ calls, call.arguments ≠ creationArguments name := by
  intro call hcall harguments
  obtain ⟨earlier, later, rfl⟩ := List.append_of_mem hcall
  have hearlier := (Git.View.along_append.mp h).1
  exact ((h.of_split rfl).absent name harguments).2 (subset_behindAll hearlier hbranch)

/-- Behind a call that has made a branch for a tag the branch is there. -/
theorem mem_of_hasCreated (h : view.Along (TreatsBranches branches) calls)
    (hcreated : ∃ call ∈ calls, call.hasCreated name = true) :
    name ≠ "HEAD" ∧ name ∈ branches (view.behindAll calls) := by
  obtain ⟨call, hcall, hcreated⟩ := hcreated
  have harguments : call.arguments = creationArguments name :=
    of_decide_eq_true (Bool.and_eq_true_iff.mp hcreated).1
  obtain ⟨earlier, later, rfl⟩ := List.append_of_mem hcall
  have hlater := (Git.View.along_append.mp h).2
  rw [Git.View.behindAll_append]
  exact ⟨((h.of_split rfl).absent name harguments).1,
    subset_behindAll hlater.2 (hlater.1.created name hcreated)⟩

/-- At most once a branch is made for a tag. -/
theorem countP_hasCreated_le (h : view.Along (TreatsBranches branches) calls) :
    calls.countP (Call.hasCreated name) ≤ 1 := by
  induction calls generalizing view with
  | nil => exact Nat.zero_le 1
  | cons call calls ih =>
    cases hcreated : call.hasCreated name with
    | false =>
      rw [List.countP_cons_of_neg (by simp [hcreated])]
      exact ih h.2
    | true =>
      -- this call has made the branch, so none behind it is a creation of that name
      have hother := arguments_ne h.2 (h.1.created name hcreated)
      have hnone : calls.countP (Call.hasCreated name) = 0 := by
        rw [List.countP_eq_zero]
        intro other hmem
        simp [Call.hasCreated, hother other hmem]
      rw [List.countP_cons_of_pos hcreated, hnone]

end TreatsBranches

/-- Bringing the submodules along is made of the commands that do so. -/
theorem madeOf_updateSubmodules (reference : String) :
    MadeOf (fun command => command.folder = some workingCopy ∧
      command.arguments.map (·.text) ∈ checkoutArguments reference ∧
      (command.arguments.map (·.text)).head? = some "submodule")
      (updateSubmodules workingCopy) := by
  have hexecute (word : String) (hword : word ∈ ["init", "update"]) :
      MadeOf (fun command => command.folder = some workingCopy ∧
        command.arguments.map (·.text) ∈ checkoutArguments reference ∧
        (command.arguments.map (·.text)).head? = some "submodule")
        (discard (Git.execute workingCopy ["submodule", word])) := by
    refine .discard (.run ⟨Command.folder_within _ _, ?_⟩)
    rw [Command.map_text_plain_within]
    simpa [checkoutArguments] using hword
  exact .bind (hexecute "init" (by simp)) fun _ => hexecute "update" (by simp)

/-- A merge that is tried is made of probes and the merge of what the reference is known for. -/
theorem madeOf_tryMerge_arguments (reference : String) :
    MadeOf (fun command => command.Names workingCopy probeCommands ∨
      (command.folder = some workingCopy ∧
        ∃ kind, command.arguments.map (·.text) = mergeArguments reference kind))
      (tryMerge workingCopy reference) := by
  refine .bind (.attempt ((madeOf_classify reference).mono fun _ => .inl)) fun result => ?_
  cases result with
  | error failure => exact .bind (.report _ _ _) fun _ => .pure _
  | ok kind =>
    refine .bind (.attempt (.run (.inr ⟨Command.folder_within _ _, kind, ?_⟩))) fun merged => ?_
    · rw [Command.map_text_plain_within, qualify_mergedKind]
      rfl
    · cases merged <;> exact .bind (.report _ _ _) fun _ => .pure _

/-- A fetch is made of the fetch itself and of setting a URL. -/
theorem madeOf_fetchFrom_arguments (source : Source) :
    MadeOf (fun command => command.folder = some workingCopy ∧
      (command.arguments.map (·.text) = Repository.fetchArguments ∨
        ∃ url, command.arguments.map (·.text) = Origin.setUrlArguments url))
      (Repository.fetchFrom workingCopy source) := by
  have hfetch : (Repository.fetchCommand.within workingCopy).arguments.map (·.text) =
      Repository.fetchArguments := Command.map_text_plain_within _ _
  cases source with
  | hosted hosted =>
    refine .bind (.report _ _ _) fun _ => .bind .environment fun _ => .discard ?_
    exact Origin.madeOf_runAuthenticated_of (fun url _ hset => ⟨hset.1, .inr ⟨url, hset.2⟩⟩)
      ⟨rfl, .inl hfetch⟩
  | remote url => exact .bind (.report _ _ _) fun _ => .discard (.run ⟨rfl, .inl hfetch⟩)
  | folder path => exact .pure _

/-- Calls that name other commands are no checkouts. -/
theorem filter_isCheckout_eq_nil {calls : List Call} {names : List String}
    (h : ∀ call ∈ calls, call.Names workingCopy names) (hnames : "checkout" ∉ names) :
    calls.filter (·.isCheckout) = [] := by
  rw [List.filter_eq_nil_iff]
  intro call hcall
  simpa [Call.isCheckout] using (h call hcall).head_ne hnames

namespace KeepsBranches

variable (h : KeepsBranches git workingCopy branches)
include h

/-- A probe treats the branches well, and changes nothing about them. -/
theorem treats_probe {command : Command} (hcommand : command.Names workingCopy probeCommands)
    (workspace : Workspace) :
    TreatsBranches branches workspace.view (command.callBy git workspace) ∧
      branches (workspace.view.behind (command.callBy git workspace)) =
        branches workspace.view := by
  obtain ⟨hfolder, hname⟩ := hcommand
  have hsame : branches (workspace.view.behind (command.callBy git workspace)) =
      branches workspace.view := by
    unfold Command.callBy
    rw [hfolder]
    exact h.probes workspace _ hname
  refine ⟨.of_other hsame.ge fun name hcreation => ?_, hsame⟩
  obtain ⟨word, hword, hhead⟩ := hname
  rw [Command.callBy, Git.arguments_attempt] at hcreation
  rw [hcreation] at hhead
  cases hhead
  simp [probeCommands] at hword

/-- So does a command of the upkeep that makes no branch for a tag. -/
theorem treats_other {command : Command} (hfolder : command.folder = some workingCopy)
    (harguments : IsUpkeep (command.arguments.map (·.text)))
    (hother : ∀ name, command.arguments.map (·.text) ≠ creationArguments name)
    (workspace : Workspace) :
    TreatsBranches branches workspace.view (command.callBy git workspace) := by
  refine .of_other ?_ fun name => ?_
  · unfold Command.callBy
    rw [hfolder]
    exact h.keeps workspace _ harguments
  · rw [Command.callBy, Git.arguments_attempt]
    exact hother name

/-- A branch that there is is known for one, by whatever other references there are. -/
theorem ensures_classify_of_mem (hgit : host.git = some git) (hhead : reference ≠ "HEAD")
    (hbranch : reference ∈ branches before.view) :
    Ensures (classify workingCopy reference) host before fun result _ _ =>
      result = .ok .localBranch := by
  have hkept (workspace : Workspace) (hmem : reference ∈ branches workspace.view)
      {arguments : List String} (hname : ∃ name ∈ probeCommands, arguments.head? = some name) :
      reference ∈ branches
        (workspace.view.behind (git.attempt workspace (some workingCopy) arguments)) := by
    rwa [h.probes workspace arguments hname]
  have hleads : AnswersWhile git workingCopy (fun view => reference ∈ branches view)
      ["merge-base", reference, reference] True := fun workspace hmem =>
    ⟨iff_of_true (h.leads workspace reference hmem) trivial,
      hkept workspace hmem ⟨"merge-base", by decide, rfl⟩⟩
  have hfound : AnswersWhile git workingCopy (fun view => reference ∈ branches view)
      ["show-ref", "--verify", "--quiet", "refs/heads/" ++ reference] True := fun workspace hmem =>
    ⟨iff_of_true (h.found workspace reference hmem) trivial,
      hkept workspace hmem ⟨"show-ref", by decide, rfl⟩⟩
  unfold classify
  rw [if_neg hhead]
  refine hleads.ensures_bind hgit hbranch ?_ (fun hnot => absurd trivial hnot)
  intro _ after hafter
  refine hfound.ensures_bind hgit hafter ?_ (fun hnot => absurd trivial hnot)
  exact fun _ _ _ => Ensures.pure rfl

/-- Classifying a reference leaves the branches alone, and gives no tag where there is a branch. -/
theorem ensures_classify (hgit : host.git = some git) :
    Ensures (classify workingCopy reference) host before fun result calls after =>
      (result = .ok .tag → reference ≠ "HEAD" ∧ reference ∉ branches after.view) ∧
        before.view.LeadsBy (TreatsBranches branches) calls after.view := by
  have hprobes : Ensures (classify workingCopy reference) host before fun _ calls after =>
      before.view.LeadsBy (fun view call => TreatsBranches branches view call ∧
        branches (view.behind call) = branches view) calls after.view :=
    (madeOf_classify reference).ensures_leadsBy hgit (fun _ => h.treats_probe) before
  have hresult : Ensures (classify workingCopy reference) host before fun result _ _ =>
      result = .ok .tag → reference ≠ "HEAD" ∧ reference ∉ branches before.view := by
    by_cases hhead : reference = "HEAD"
    · subst hhead
      have hhash : (Action.outcome (classify workingCopy "HEAD") host before).1 = .ok .hash :=
        classify_head host before
      obtain ⟨calls, hcalls, -⟩ := hprobes
      refine ⟨calls, hcalls, fun htag => ?_⟩
      rw [hhash] at htag
      cases htag
    · by_cases hbranch : reference ∈ branches before.view
      · refine (h.ensures_classify_of_mem hgit hhead hbranch).mono ?_
        intro result _ _ hlocal htag
        rw [hlocal] at htag
        cases htag
      · exact hprobes.mono fun _ _ _ _ _ => ⟨hhead, hbranch⟩
  refine (hprobes.both hresult).mono ?_
  intro result calls after hboth
  obtain ⟨⟨hlast, halong⟩, htag⟩ := hboth
  have hsame : branches after.view = branches before.view := by
    rw [hlast]
    exact (halong.mono fun _ _ => And.right).behindAll_eq
  rw [hsame]
  exact ⟨htag, hlast, halong.mono fun _ _ => And.left⟩

/-- A checkout makes a branch for a tag only where there is none of its name. -/
theorem ensures_checkout (hgit : host.git = some git) :
    Ensures (checkout workingCopy reference) host before fun _ calls after =>
      before.view.LeadsBy (TreatsBranches branches) calls after.view := by
  have hsubmodules (between : Workspace) :
      Ensures (updateSubmodules workingCopy) host between fun _ calls after =>
        between.view.LeadsBy (TreatsBranches branches) calls after.view := by
    refine (madeOf_updateSubmodules reference).ensures_leadsBy hgit ?_ between
    intro command hcommand
    obtain ⟨hfolder, harguments, hhead⟩ := hcommand
    refine h.treats_other hfolder (.inl ⟨reference, harguments⟩) fun name hcreation => ?_
    simp [hcreation, creationArguments] at hhead
  refine Ensures.bind (h.ensures_classify hgit) ?_ fun _ _ _ hclassified => hclassified.2
  intro kind probes classified hclassified
  obtain ⟨htag, hprobes⟩ := hclassified
  have hkind : Ensures (checkoutKind workingCopy reference kind) host classified
      fun _ calls after =>
        classified.view.LeadsBy (TreatsBranches branches) calls after.view := by
    unfold checkoutKind
    by_cases hkind : kind = .tag
    · subst hkind
      obtain ⟨hhead, hbranch⟩ := htag rfl
      simp only [if_true]
      refine Ensures.step rfl rfl (Ensures.discard (ensures_execute hgit ?_))
      intro after hafter
      rw [hafter]
      refine .single ⟨h.keeps classified _ (.inl ⟨reference, by simp [checkoutArguments]⟩), ?_, ?_⟩
      · intro name hname
        rw [Git.arguments_attempt] at hname
        rw [← creationArguments_inj hname]
        exact ⟨hhead, hbranch⟩
      · intro name hcreated
        obtain ⟨hname, hsucceeded⟩ := Bool.and_eq_true_iff.mp hcreated
        rw [Git.arguments_attempt, decide_eq_true_eq] at hname
        rw [← creationArguments_inj hname]
        exact h.creates classified reference hsucceeded
    · simp only [if_neg hkind]
      refine Ensures.step rfl rfl (Ensures.discard (ensures_execute hgit ?_))
      intro after hafter
      rw [hafter]
      refine .single (.of_other ?_ fun name hcreation => ?_)
      · exact h.keeps classified _ (.inl ⟨reference, by simp [checkoutArguments]⟩)
      · rw [Git.arguments_attempt] at hcreation
        simp [creationArguments] at hcreation
  have hrest : Ensures (checkoutKind workingCopy reference kind >>= fun _ =>
      updateSubmodules workingCopy) host classified fun _ calls after =>
        classified.view.LeadsBy (TreatsBranches branches) calls after.view :=
    Ensures.bind_leadsBy hkind fun _ between => hsubmodules between
  exact hrest.mono fun _ _ _ hmore => hprobes.append hmore

/-- A merge that is tried makes no branch for a tag. -/
theorem ensures_tryMerge (hgit : host.git = some git) (before : Workspace) :
    Ensures (tryMerge workingCopy reference) host before fun _ calls after =>
      before.view.LeadsBy (TreatsBranches branches) calls after.view := by
  refine (madeOf_tryMerge_arguments reference).ensures_leadsBy hgit ?_ before
  intro command hcommand workspace
  rcases hcommand with hprobe | ⟨hfolder, kind, harguments⟩
  · exact (h.treats_probe hprobe workspace).1
  · refine h.treats_other hfolder (.inr (.inl ⟨reference, kind, harguments⟩)) ?_ workspace
    intro name hcreation
    rw [harguments] at hcreation
    simp [mergeArguments, creationArguments] at hcreation

/-- Nor does a fetch. -/
theorem ensures_fetchFrom (hgit : host.git = some git) (source : Source) (before : Workspace) :
    Ensures (Repository.fetchFrom workingCopy source) host before fun _ calls after =>
      before.view.LeadsBy (TreatsBranches branches) calls after.view := by
  refine (madeOf_fetchFrom_arguments source).ensures_leadsBy hgit ?_ before
  intro command hcommand
  obtain ⟨hfolder, harguments⟩ := hcommand
  refine h.treats_other hfolder (.inr (.inr harguments)) fun name hcreation => ?_
  rw [hcreation] at harguments
  rcases harguments with hfetch | ⟨url, hset⟩
  · simp [Repository.fetchArguments, creationArguments] at hfetch
  · simp [Origin.setUrlArguments, creationArguments] at hset

/-- Where there is a branch, the checkout of its name is that of the bare name. -/
theorem ensures_checkout_of_mem (hgit : host.git = some git) (hhead : reference ≠ "HEAD")
    (hbranch : reference ∈ branches before.view) :
    Ensures (checkout workingCopy reference) host before fun _ calls _ =>
      (calls.filter (·.isCheckout)).map (·.arguments) = [["checkout", reference]] := by
  have hclassify : Ensures (classify workingCopy reference) host before fun result calls _ =>
      calls.filter (·.isCheckout) = [] ∧ result = .ok .localBranch := by
    refine ((makes_classify reference host before).both
      (h.ensures_classify_of_mem hgit hhead hbranch)).mono ?_
    intro result calls _ hboth
    exact ⟨filter_isCheckout_eq_nil hboth.1 (by decide), hboth.2⟩
  have hsubmodules (between : Workspace) :
      Ensures (updateSubmodules workingCopy) host between fun _ calls _ =>
        calls.filter (·.isCheckout) = [] := by
    have hnamed : Makes (updateSubmodules workingCopy) fun call =>
        call.Names workingCopy ["submodule"] :=
      ((madeOf_updateSubmodules reference).mono fun _ hcommand =>
        ⟨hcommand.1, "submodule", by simp, hcommand.2.2⟩).makes_names
    exact (hnamed host between).mono fun _ _ _ hcalls =>
      filter_isCheckout_eq_nil hcalls (by decide)
  have hcheckout (between : Workspace) :
      Ensures (checkoutKind workingCopy reference .localBranch) host between fun _ calls _ =>
        (calls.filter (·.isCheckout)).map (·.arguments) = [["checkout", reference]] := by
    have hcall (workspace : Workspace) :
        (git.attempt workspace (some workingCopy) ["checkout", reference]).isCheckout = true :=
      decide_eq_true (by rw [Git.arguments_attempt]; rfl)
    refine Ensures.step rfl rfl (Ensures.discard (ensures_execute hgit fun _ _ => ?_))
    simp [hcall, Git.arguments_attempt]
  refine Ensures.bind hclassify ?_ ?_
  · intro kind probes classified hclassified
    obtain ⟨hprobes, hkind⟩ := hclassified
    cases hkind
    refine Ensures.bind (hcheckout classified) ?_ ?_
    · intro _ calls between hcalls
      refine (hsubmodules between).mono fun _ more _ hmore => ?_
      simp [List.filter_append, hprobes, hmore, hcalls]
    · intro _ calls _ hcalls
      simp [List.filter_append, hprobes, hcalls]
  · intro failure _ _ hclassified
    cases hclassified.2

end KeepsBranches

namespace Git.References

/-- The branches of the references that the calls have left, in a folder where git can be asked for
them. -/
def branchesIn (start : References) (workingCopy : Path) (view : View) : Set String :=
  {name | view.2.isFolder workingCopy = true ∧ '\x00' ∉ name.toList ∧
    ((start.behind view.1).target? ("refs/heads/" ++ name)).isSome = true}

/-- Probes are answered by the references and leave them as they are. -/
theorem fst_answer?_probe {references : References} {arguments : List String}
    {answer : References × String} (hprobe : ∃ name ∈ probeCommands, arguments.head? = some name)
    (h : references.answer? arguments = some answer) : answer.1 = references := by
  unfold answer? at h
  split at h
  · split at h
    · obtain ⟨hash, -, rfl⟩ := Option.map_eq_some_iff.mp h
      rfl
    · cases h
  · obtain ⟨target, -, rfl⟩ := Option.map_eq_some_iff.mp h
    rfl
  · obtain ⟨hash, -, rfl⟩ := Option.map_eq_some_iff.mp h
    rfl
  · simp [probeCommands] at hprobe
  · simp [probeCommands] at hprobe
  · cases h
    rfl
  · cases h

/-- Behind a probe the references are those before it. -/
theorem behind_probe (start : References) {call : Call}
    (hprobe : ∃ name ∈ probeCommands, call.arguments.head? = some name) (calls : List Call) :
    start.behind (call :: calls) = start.behind calls := by
  rw [behind]
  split
  · cases hanswer : (start.behind calls).answer? call.arguments with
    | none => rfl
    | some answer => exact fst_answer?_probe hprobe hanswer
  · rfl

/-- The git that keeps references keeps branches, where no tag marks a file or a folder. -/
theorem keepsBranches_git {start : References} (hstart : start.MarkCommits)
    (hpath : '\x00' ∉ workingCopy.text.toList) :
    KeepsBranches start.git workingCopy (start.branchesIn workingCopy) := by
  have hfiles (workspace : Workspace) (arguments : List String) :
      (workspace.view.behind
        (start.git.attempt workspace (some workingCopy) arguments)).2 = workspace.files :=
    after_attempt_git _
  have hleads (workspace : Workspace) (name : String)
      (hname : name ∈ start.branchesIn workingCopy workspace.view) :
      workspace.files.isFolder workingCopy = true ∧ '\x00' ∉ name.toList ∧
        ((start.behind workspace.calls).target? ("refs/heads/" ++ name)).isSome = true := hname
  constructor
  · intro workspace arguments hprobe
    have hbehind : start.behind
        (start.git.attempt workspace (some workingCopy) arguments :: workspace.calls) =
          start.behind workspace.calls :=
      behind_probe start (by rwa [Git.arguments_attempt]) workspace.calls
    ext name
    unfold branchesIn
    rw [Set.mem_ofPred_eq, hfiles]
    show _ ∧ _ ∧ ((start.behind (_ :: workspace.calls)).target? _).isSome = true ↔ _
    rw [hbehind]
    rfl
  · intro workspace name hname
    obtain ⟨hfolder, hnul, hbranch⟩ := hleads workspace name hname
    rw [succeeded_attempt_git hfolder (by simp [hpath, hnul])]
    have hcommit := isSome_commit?_of_branch (markCommits_behind hstart workspace.calls) hbranch
    simpa [answer?] using hcommit
  · intro workspace name hname
    obtain ⟨hfolder, hnul, hbranch⟩ := hleads workspace name hname
    rw [succeeded_attempt_git hfolder (by simp [hpath, hnul])]
    simpa [answer?] using hbranch
  · intro workspace name call hsucceeded
    obtain ⟨location, hlocation⟩ := Git.startingFolder_of_succeeded hsucceeded
    obtain ⟨hfolder, hnul⟩ := Git.of_startingFolder_eq_ok hlocation
    obtain ⟨answer, hanswer, hbehind⟩ := answer?_of_succeeded hsucceeded
    simp only [creationArguments, answer?, Option.map_eq_some_iff] at hanswer
    obtain ⟨hash, -, rfl⟩ := hanswer
    refine ⟨?_, hnul name (by simp [creationArguments]), ?_⟩
    · rwa [hfiles]
    · show ((start.behind (_ :: workspace.calls)).target? _).isSome = true
      rw [hbehind]
      simp [land]
  · intro workspace arguments _ name hname
    obtain ⟨hfolder, hnul, hbranch⟩ := hleads workspace name hname
    refine ⟨?_, hnul, (grow_behind start _ _).kept _ hbranch⟩
    rwa [hfiles]

end Git.References

end WorkingCopies
