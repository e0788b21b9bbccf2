import WorkingCopies.Checkout
import WorkingCopies.Proofs.Reference.Consult

/-!
# Where a checkout ends

A branch of the remote and a tag are to end on a local branch of their name. For a tag that branch
is made by the checkout itself, from the tag. For a branch of the remote git is given the bare name
and makes the branch on its own, but only where the bare name leads to nothing: a tag of the same
name is checked out in its place, and the working copy is then on no branch.
-/

namespace WorkingCopies

open Git (Head References)
open Reference (Consults Kind classify consults_git fullName? qualify)

variable {host : Host} {git : Git} {before : Workspace} {workingCopy : Path}
  {read : Git.View → References} {start : References} {reference : String}

/-- A git whose commands for a checkout do to the references of a working copy what the manual says.
The references are read off what the git can go by. -/
structure ChecksOut (git : Git) (workingCopy : Path) (read : Git.View → References)
    (reference : String) : Prop where
  consults (references : References) : Consults git workingCopy
    (fun view => view.2.isFolder workingCopy = true ∧ read view = references) references reference
  switches (workspace : Workspace) :
    let call := git.attempt workspace (some workingCopy) ["checkout", reference]
    call.succeeded = true →
      (read workspace.view).Switched reference (read (workspace.view.behind call))
  creates (workspace : Workspace) :
    let name := qualify reference .tag
    let call := git.attempt workspace (some workingCopy) ["checkout", name, "-b", reference]
    call.succeeded = true →
      (read workspace.view).Branched name reference (read (workspace.view.behind call))
  submodules (workspace : Workspace) : ∀ name ∈ ["init", "update"],
    let after := read
      (workspace.view.behind (git.attempt workspace (some workingCopy) ["submodule", name]))
    after.head = (read workspace.view).head ∧ after.target? = (read workspace.view).target?

/-- The git that keeps references checks out as the manual says. -/
theorem checksOut_git (start : References) (hpath : '\x00' ∉ workingCopy.text.toList)
    (hreference : '\x00' ∉ reference.toList) :
    ChecksOut start.git workingCopy (fun view => start.behind view.1) reference where
  consults references := consults_git start references hpath hreference
  switches workspace := by
    intro call hsucceeded
    obtain ⟨answer, hanswer, hbehind⟩ := References.answer?_of_succeeded hsucceeded
    simp only [References.answer?, Option.map_eq_some_iff] at hanswer
    obtain ⟨after, hswitch, rfl⟩ := hanswer
    show (start.behind workspace.calls).Switched reference (start.behind (call :: workspace.calls))
    rw [hbehind]
    exact References.switched_of_switch? hswitch
  creates workspace := by
    intro name call hsucceeded
    obtain ⟨answer, hanswer, hbehind⟩ := References.answer?_of_succeeded hsucceeded
    simp only [References.answer?, Option.map_eq_some_iff] at hanswer
    obtain ⟨hash, hcommit, rfl⟩ := hanswer
    show (start.behind workspace.calls).Branched name reference
      (start.behind (call :: workspace.calls))
    rw [hbehind]
    exact References.branched_land hcommit
  submodules workspace := by
    intro name _
    have hbehind : start.behind (start.git.attempt workspace (some workingCopy)
        ["submodule", name] :: workspace.calls) = start.behind workspace.calls := by
      rw [References.behind, Git.arguments_attempt]
      simp [References.answer?]
    exact ⟨congrArg References.head hbehind, congrArg References.target? hbehind⟩

namespace ChecksOut

/-- What the checkout of a known kind does to the references if it succeeds. -/
theorem ensures_checkoutKind (h : ChecksOut git workingCopy read reference)
    (hgit : host.git = some git) (kind : Kind) :
    Ensures (checkoutKind workingCopy reference kind) host before fun result _ after =>
      result = .ok () →
        if kind = .tag then
          (read before.view).Branched (qualify reference .tag) reference (read after.view)
        else (read before.view).Switched reference (read after.view) := by
  unfold checkoutKind
  by_cases hkind : kind = .tag
  · subst hkind
    simp only [if_true]
    refine Ensures.step rfl rfl (Ensures.discard (ensures_execute hgit ?_))
    intro after hafter hresult
    rw [hafter]
    exact h.creates _ (Git.Command.succeeded_of_map_conclude hresult)
  · simp only [if_neg hkind]
    refine Ensures.step rfl rfl (Ensures.discard (ensures_execute hgit ?_))
    intro after hafter hresult
    rw [hafter]
    exact h.switches _ (Git.Command.succeeded_of_map_conclude hresult)

/-- Bringing the submodules along leaves the working copy on the branch that it is on. -/
theorem ensures_updateSubmodules (h : ChecksOut git workingCopy read reference)
    (hgit : host.git = some git) (name hash : String) :
    Ensures (updateSubmodules workingCopy) host before fun _ _ after =>
      (read after.view).IsOn name hash ↔ (read before.view).IsOn name hash := by
  have hcommand (word : String) (hword : word ∈ ["init", "update"]) (before : Workspace) :
      Ensures (discard (Git.execute workingCopy ["submodule", word])) host before fun _ _ after =>
        (read after.view).IsOn name hash ↔ (read before.view).IsOn name hash := by
    refine Ensures.discard (ensures_execute hgit fun after hafter => ?_)
    obtain ⟨hhead, htarget⟩ := h.submodules before word hword
    rw [hafter]
    simp only [References.IsOn, hhead, htarget]
  refine Ensures.bind (hcommand "init" (by simp) before) ?_ fun _ _ _ hinit => hinit
  intro _ _ middle hinit
  exact (hcommand "update" (by simp) middle).mono fun _ _ _ hupdate => hupdate.trans hinit

end ChecksOut

/-- A checkout of a branch of the remote or of a tag that succeeds was one of a name with a commit.
It ends on a branch of the bare name at that commit for every tag, and for a branch of the remote
exactly where the bare name is good for such a branch. -/
theorem checkout_isOn_iff {environment : Environment} {kind : Kind}
    (h : ChecksOut git workingCopy read reference)
    (hfolder : before.files.isFolder workingCopy = true)
    (hkind : ((classify workingCopy reference).carryOut ⟨some git, environment⟩ before).1 =
      .ok kind)
    (hremote : kind = .remoteBranch ∨ kind = .tag)
    (hchecked : ((checkout workingCopy reference).carryOut ⟨some git, environment⟩ before).1 =
      .ok ()) :
    let after := ((checkout workingCopy reference).carryOut ⟨some git, environment⟩ before).2
    ∃ hash, (read before.view).commit? (qualify reference kind) = some hash ∧
      ((read after.view).IsOn reference hash ↔
        kind = .tag ∨ (read before.view).OffersBranch reference hash) := by
  intro after
  have hgit : (⟨some git, environment⟩ : Host).git = some git := rfl
  obtain ⟨full, hfull⟩ : ∃ full, fullName? reference kind = some full := by
    rcases hremote with rfl | rfl <;> exact ⟨_, rfl⟩
  have hclassify := (h.consults (read before.view)).ensures_classify hgit ⟨hfolder, rfl⟩ hfull hkind
  have hcheckout : Ensures (checkout workingCopy reference) ⟨some git, environment⟩ before
      fun result _ after => result = .ok () → ∃ hash,
        (read before.view).commit? (qualify reference kind) = some hash ∧
          ((read after.view).IsOn reference hash ↔
            kind = .tag ∨ (read before.view).OffersBranch reference hash) := by
    refine Ensures.bind hclassify ?_ (by simp)
    intro found _ probed hfound
    obtain ⟨hsame, ⟨-, hread⟩, hash, hcommit⟩ := hfound
    cases hsame
    refine Ensures.bind (h.ensures_checkoutKind hgit kind) ?_ (by simp)
    intro _ _ switched hswitched
    have hlanded : (read switched.view).IsOn reference hash ↔
        kind = .tag ∨ (read before.view).OffersBranch reference hash := by
      have hswitched := hswitched rfl
      rw [hread] at hswitched
      rcases hremote with rfl | rfl
      · simpa using References.Switched.isOn_iff hswitched
      · simpa using References.Branched.isOn hswitched hcommit
    refine (h.ensures_updateSubmodules hgit reference hash).mono ?_
    intro _ _ last hlast _
    exact ⟨hash, hcommit, hlast.trans hlanded⟩
  obtain ⟨-, -, hresult⟩ := hcheckout
  exact hresult hchecked

/-- A branch that only the remote has ends on a local branch that is made for it. -/
theorem checkout_isOn_of_remote_branch :
    let start := References.ofList [("refs/heads/main", .commit "a0"),
      ("refs/remotes/origin/next", .commit "c0")] (.branch "main")
    let checked := (checkout ⟨"/"⟩ "next").carryOut ⟨some start.git, ⟨[]⟩⟩ { files := {} }
    checked.1 = .ok () ∧ (start.behind checked.2.calls).IsOn "next" "c0" := by
  intro start checked
  have hpath : '\x00' ∉ (⟨"/"⟩ : Path).text.toList := by decide
  have hreference : '\x00' ∉ "next".toList := by decide
  have hkind : ((classify ⟨"/"⟩ "next").carryOut ⟨some start.git, ⟨[]⟩⟩ { files := {} }).1 =
      .ok .remoteBranch := by decide +kernel
  have hchecked : checked.1 = .ok () := by decide +kernel
  have hcommit : start.commit? (qualify "next" .remoteBranch) = some "c0" := by decide +kernel
  have hnothing : start.resolve? "next" = none := by decide +kernel
  have hbranch : start.target? ("refs/remotes/origin/" ++ "next") = some (.commit "c0") := by
    decide +kernel
  obtain ⟨hash, hsame, hiff⟩ := checkout_isOn_iff (checksOut_git start hpath hreference)
    (by decide +kernel) hkind (.inl rfl) hchecked
  obtain rfl : "c0" = hash := Option.some.inj (hcommit.symm.trans hsame)
  exact ⟨hchecked, hiff.mpr (.inr (.inr ⟨hnothing, hbranch⟩))⟩

/-- A branch of the remote and a tag at another commit share a name: the reference is known for the
branch, and the working copy is left at the tag, on no branch. -/
theorem checkout_detached_of_tag :
    let start := References.ofList [("refs/heads/main", .commit "a0"),
      ("refs/remotes/origin/v1", .commit "b0"), ("refs/tags/v1", .commit "c0")] (.branch "main")
    let host : Host := ⟨some start.git, ⟨[]⟩⟩
    let checked := (checkout ⟨"/"⟩ "v1").carryOut host { files := {} }
    ChecksOut start.git ⟨"/"⟩ (fun view => start.behind view.1) "v1" ∧
      ((classify ⟨"/"⟩ "v1").carryOut host { files := {} }).1 = .ok .remoteBranch ∧
      start.commit? "origin/v1" = some "b0" ∧ checked.1 = .ok () ∧
      (start.behind checked.2.calls).head = .detached "c0" := by
  intro start host checked
  refine ⟨checksOut_git start (by decide) (by decide), ?_, ?_, ?_, ?_⟩ <;> decide +kernel

end WorkingCopies
