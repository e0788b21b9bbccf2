import WorkingCopies.Proofs.Repository.BestEffort
import WorkingCopies.Proofs.WorkingCopy.Branches

/-!
# Keeping a working copy up

A working copy is kept up by checkouts, by checkouts with a merge behind them, and by updates from
a network, in any order and with any references. Over such a run a branch is made for a tag at most
once, and the name of the tag is that of a local branch ever after.
-/

namespace WorkingCopies

open Git (Call)
open Reference (classify)

variable {host : Host} {git : Git} {before after : Workspace} {workingCopy : Path}
  {branches : Git.View → Set String}

/-- A way to keep a working copy up. An update is one from some repository, which may have been
fetched before or not. -/
inductive Upkeep where
  | checkout (reference : String)
  | checkoutAndMerge (reference : String)
  | update (repository : Repository) (reference : String)

namespace Upkeep

/-- Whether all that is updated from is reached over a network. -/
def IsNetwork : Upkeep → Prop
  | update repository _ => repository.source.isNetwork = true
  | _ => True

/-- The workspace that is left, whether this succeeds or fails. -/
def leave (host : Host) (workingCopy : Path) (before : Workspace) : Upkeep → Workspace
  | checkout reference => ((WorkingCopies.checkout workingCopy reference).carryOut host before).2
  | checkoutAndMerge reference =>
    ((WorkingCopies.checkoutAndMerge workingCopy reference).carryOut host before).2
  | update repository reference =>
    ((Repository.update workingCopy reference).carryOut host repository before).2.2

/-- The workspace that a run leaves, one thing being done after the other. -/
def leaveAll (host : Host) (workingCopy : Path) (before : Workspace) (run : List Upkeep) :
    Workspace :=
  run.foldl (leave host workingCopy) before

/-- Whether the calls between two workspaces treat the branches well. -/
def Respects (branches : Git.View → Set String) (before after : Workspace) : Prop :=
  ∃ calls, before.view.LeadsBy (TreatsBranches branches) calls after.view

/-- Where nothing is done the branches are treated well. -/
theorem Respects.refl (before : Workspace) : Respects branches before before := ⟨[], .nil⟩

/-- Two ways on which the branches are treated well are one. -/
theorem Respects.trans {between : Workspace} (h : Respects branches before between)
    (hmore : Respects branches between after) : Respects branches before after := by
  obtain ⟨calls, hcalls⟩ := h
  obtain ⟨more, hmore⟩ := hmore
  exact ⟨calls ++ more, hcalls.append hmore⟩

/-- An operation respects the branches if it ensures so of its calls. -/
theorem Respects.of_ensures {α : Type} {operation : Operation α}
    (h : Ensures operation host before fun _ calls after =>
      before.view.LeadsBy (TreatsBranches branches) calls after.view) :
    Respects branches before (operation.carryOut host before).2 := by
  obtain ⟨calls, -, hcalls⟩ := h
  exact ⟨calls, hcalls⟩

/-- A fetch respects the branches. -/
theorem respects_fetch (h : KeepsBranches git workingCopy branches) (hgit : host.git = some git)
    (repository : Repository) (before : Workspace) :
    Respects branches before
      ((Repository.fetch workingCopy).carryOut host repository before).2.2 := by
  rw [Repository.carryOut_fetch]
  split
  · exact .refl before
  · exact .of_ensures (h.ensures_fetchFrom hgit repository.source before)

/-- Whatever keeps a working copy up respects the branches. -/
theorem respects_leave (h : KeepsBranches git workingCopy branches) (hgit : host.git = some git)
    (upkeep : Upkeep) (hnetwork : upkeep.IsNetwork) (before : Workspace) :
    Respects branches before (upkeep.leave host workingCopy before) := by
  have hcheckout (reference : String) (before : Workspace) :
      Respects branches before
        ((WorkingCopies.checkout workingCopy reference).carryOut host before).2 :=
    .of_ensures (h.ensures_checkout hgit)
  have hmerge (reference : String) (before : Workspace) :
      Respects branches before ((tryMerge workingCopy reference).carryOut host before).2 :=
    .of_ensures (h.ensures_tryMerge hgit before)
  cases upkeep with
  | checkout reference => exact hcheckout reference before
  | checkoutAndMerge reference =>
    show Respects branches before
      ((WorkingCopies.checkoutAndMerge workingCopy reference).carryOut host before).2
    cases hresult : ((WorkingCopies.checkout workingCopy reference).carryOut host before).1 with
    | error failure =>
      rw [carryOut_checkoutAndMerge_of_error hresult]
      exact hcheckout reference before
    | ok _ =>
      rw [carryOut_checkoutAndMerge_of_ok hgit hresult]
      exact (hcheckout reference before).trans (hmerge reference _)
  | update repository reference =>
    have hends : Repository.UpdateEnds _ _ _
        ((Repository.update workingCopy reference).carryOut host repository before) :=
      Repository.updateEnds hgit hnetwork
    have hfetch := respects_fetch h hgit repository before
    show Respects branches before
      ((Repository.update workingCopy reference).carryOut host repository before).2.2
    generalize (Repository.update workingCopy reference).carryOut host repository before =
      updated at hends
    cases hends with
    | fetching hfetched => exact hfetch
    | checking hfetched hfirst => exact hfetch.trans (hcheckout reference _)
    | ending hfetched hfirst =>
      exact hfetch.trans ((hcheckout reference _).trans ((hmerge reference _).trans
        (hcheckout reference _)))

/-- So does every run. -/
theorem respects_leaveAll (h : KeepsBranches git workingCopy branches) (hgit : host.git = some git)
    (run : List Upkeep) (hnetwork : ∀ upkeep ∈ run, upkeep.IsNetwork) (before : Workspace) :
    Respects branches before (leaveAll host workingCopy before run) := by
  induction run generalizing before with
  | nil => exact .refl before
  | cons upkeep run ih =>
    have hfirst := respects_leave h hgit upkeep (hnetwork upkeep List.mem_cons_self) before
    exact hfirst.trans (ih (fun other hother => hnetwork other (List.mem_cons_of_mem _ hother)) _)

/-- Over every run that keeps a working copy up, a branch is made for a tag only where there is none
of that name, and so succeeds at most once for each. Behind such a success, wherever between two
calls of git, a classification of the name gives the local branch, a checkout of it is the one of
the bare name, and no call of the run makes the branch again. -/
theorem creates_branch_once {environment : Environment} {run : List Upkeep}
    (h : KeepsBranches git workingCopy branches) (hnetwork : ∀ upkeep ∈ run, upkeep.IsNetwork) :
    let host : Host := ⟨some git, environment⟩
    let calls := (leaveAll host workingCopy before run).callsSince before
    (∀ name earlier call later, calls = earlier ++ call :: later →
        call.arguments = creationArguments name → name ∉ branches (before.view.behindAll earlier)) ∧
      (∀ name, calls.countP (Call.hasCreated name) ≤ 1) ∧
      ∀ name earlier later, calls = earlier ++ later →
        (∃ call ∈ earlier, call.hasCreated name = true) →
          (∀ call ∈ later, call.arguments ≠ creationArguments name) ∧
          ∀ workspace : Workspace, workspace.view = before.view.behindAll earlier →
            ((classify workingCopy name).carryOut host workspace).1 = .ok .localBranch ∧
              ((((WorkingCopies.checkout workingCopy name).carryOut host workspace).2.callsSince
                workspace).filter (·.isCheckout)).map (·.arguments) = [["checkout", name]] := by
  intro host calls
  have hgit : host.git = some git := rfl
  obtain ⟨made, hlast, halong⟩ := respects_leaveAll h hgit run hnetwork before
  have hmade : (leaveAll host workingCopy before run).calls = made.reverse ++ before.calls :=
    (congrArg Prod.fst hlast).trans Git.View.fst_behindAll
  have hcalls : calls = made := Workspace.callsSince_eq hmade
  rw [hcalls]
  refine ⟨?_, fun name => TreatsBranches.countP_hasCreated_le halong, ?_⟩
  · intro name earlier call later hsplit harguments
    exact ((halong.of_split hsplit).absent name harguments).2
  · intro name earlier later hsplit hcreated
    -- the branch is there from the success on, as no later call takes it away
    rw [hsplit, Git.View.along_append] at halong
    obtain ⟨hhead, hbranch⟩ := TreatsBranches.mem_of_hasCreated halong.1 hcreated
    refine ⟨TreatsBranches.arguments_ne halong.2 hbranch, fun workspace hworkspace => ?_⟩
    rw [← hworkspace] at hbranch
    obtain ⟨-, -, hclassified⟩ := h.ensures_classify_of_mem hgit hhead hbranch
    obtain ⟨checking, hchecking, hchecked⟩ := h.ensures_checkout_of_mem hgit hhead hbranch
    have hsince : ((WorkingCopies.checkout workingCopy name).carryOut host workspace).2.callsSince
        workspace = checking := Workspace.callsSince_eq hchecking
    rw [hsince]
    exact ⟨hclassified, hchecked⟩

/-- A tag that is checked out, left for a branch and updated to: the branch is made for it by the
first of the four checkouts and used by the others. -/
theorem creates_branch_once_of_tag :
    let start := Git.References.ofList [("refs/heads/main", .commit "a0"),
      ("refs/tags/v1", .commit "c0")] (.branch "main")
    let run := [checkout "v1", checkoutAndMerge "main",
      update { source := .remote "url", fetched := ⟨true⟩ } "v1"]
    let calls := (leaveAll ⟨some start.git, ⟨[]⟩⟩ ⟨"/"⟩ { files := {} } run).callsSince { files := {} }
    (∀ upkeep ∈ run, upkeep.IsNetwork) ∧
      KeepsBranches start.git ⟨"/"⟩ (start.branchesIn ⟨"/"⟩) ∧
      (calls.filter (·.isCheckout)).map (fun call => (call.arguments, call.succeeded)) =
        [(creationArguments "v1", true), (["checkout", "main"], true), (["checkout", "v1"], true),
          (["checkout", "v1"], true)] ∧
      calls.countP (Call.hasCreated "v1") ≤ 1 := by
  intro start run calls
  have hcommits : start.MarkCommits := by
    intro full
    simp only [start, Git.References.ofList, List.lookup_cons, List.lookup_nil]
    repeat' split
    all_goals simp
  have hkeeps : KeepsBranches start.git ⟨"/"⟩ (start.branchesIn ⟨"/"⟩) :=
    Git.References.keepsBranches_git hcommits (by decide)
  have hnetwork : ∀ upkeep ∈ run, upkeep.IsNetwork := by
    intro upkeep hupkeep
    simp only [run, List.mem_cons, List.not_mem_nil, or_false] at hupkeep
    rcases hupkeep with rfl | rfl | rfl
    · trivial
    · trivial
    · rfl
  exact ⟨hnetwork, hkeeps, by decide +kernel, (creates_branch_once hkeeps hnetwork).2.1 "v1"⟩

end Upkeep

end WorkingCopies
