import WorkingCopies.Proofs.Git.Keeper
import WorkingCopies.Proofs.Reference.Classify

/-!
# Probes that are answered by references

The three sets that decide the kind of a reference come from the references of the repository: the
names that lead to a commit, the branches and the tags. A git that answers by references gives the
kinds of these sets, and what a reference is given to git by then leads to a commit.
-/

namespace WorkingCopies.Reference

open Git (References)

variable {host : Host} {git : Git} {before : Workspace} {workingCopy : Path}
  {references start : References} {reference : String} {property : Git.View → Prop}

/-- A git that answers the probes for one reference by the references of a repository wherever a
property holds of what it goes by, and the property holds on. -/
abbrev Consults (git : Git) (workingCopy : Path) (property : Git.View → Prop)
    (references : References) (reference : String) : Prop :=
  AnswersFor git workingCopy property {name | (references.commit? name).isSome}
    {name | (references.target? ("refs/heads/" ++ name)).isSome}
    {name | (references.target? ("refs/tags/" ++ name)).isSome} reference

/-- No probe is needed to see that `HEAD` is a commit. -/
theorem classify_head (host : Host) (before : Workspace) :
    ((classify workingCopy "HEAD").carryOut host before).1 = .ok .hash := by
  simp [classify]

/-- Behind a reference of a kind with full names there is a commit. -/
theorem Consults.ensures_classify {kind : Kind} {full : String}
    (h : Consults git workingCopy property references reference) (hgit : host.git = some git)
    (hbefore : property before.view) (hfull : fullName? reference kind = some full)
    (hkind : ((classify workingCopy reference).carryOut host before).1 = .ok kind) :
    Ensures (classify workingCopy reference) host before fun result _ after =>
      result = .ok kind ∧ property after.view ∧
        ∃ hash, references.commit? (qualify reference kind) = some hash := by
  have hhead : reference ≠ "HEAD" := by
    intro hsame
    subst hsame
    rw [classify_head] at hkind
    cases hkind
    cases hfull
  have hclassify : Ensures (classify workingCopy reference) host before fun result _ after =>
      result = .ok kind ∧ Classified _ _ _ reference result ∧ property after.view :=
    (AnswersFor.ensures_classify h hgit hbefore hhead).and_result hkind
  refine hclassify.mono fun result _ after hresult => ?_
  obtain ⟨rfl, hclassified, hafter⟩ := hresult
  exact ⟨rfl, hafter, Option.isSome_iff_exists.mp hclassified.qualify_mem⟩

/-- A command that leaves the references alone is answered by them. -/
theorem answersWhile_of_answer? {arguments : List String} {condition : Prop}
    (hnul : ∀ text ∈ workingCopy.text :: arguments, '\x00' ∉ text.toList)
    (hkept : ∀ answer ∈ references.answer? arguments, answer.1 = references)
    (hcondition : (references.answer? arguments).isSome = true ↔ condition) :
    AnswersWhile start.git workingCopy
      (fun view => view.2.isFolder workingCopy = true ∧ start.behind view.1 = references)
      arguments condition := by
  intro workspace hworkspace
  obtain ⟨hfolder, hbehind⟩ := hworkspace
  have hfolder : workspace.files.isFolder workingCopy = true := hfolder
  have hbehind : start.behind workspace.calls = references := hbehind
  refine ⟨?_, ?_, ?_⟩
  · rw [References.succeeded_attempt_git hfolder hnul, hbehind, hcondition]
  · simpa [Git.View.behind] using hfolder
  · show start.behind (_ :: workspace.calls) = references
    rw [References.behind_attempt_git hfolder hnul, hbehind]
    cases hanswer : references.answer? arguments with
    | none => rfl
    | some answer => exact hkept answer hanswer

/-- The git that keeps references answers the probes by them. -/
theorem consults_git (start references : References)
    (hpath : '\x00' ∉ workingCopy.text.toList) (hreference : '\x00' ∉ reference.toList) :
    Consults start.git workingCopy
      (fun view => view.2.isFolder workingCopy = true ∧ start.behind view.1 = references)
      references reference where
  commit kind := by
    have hname : '\x00' ∉ (qualify reference kind).toList := by
      cases kind <;> simp [qualify, remoteName, hreference]
    apply answersWhile_of_answer?
    · simp [hpath, hname]
    · simp [References.answer?]
    · simp [References.answer?]
  branch := by
    apply answersWhile_of_answer?
    · simp [hpath, hreference]
    · simp [References.answer?]
    · simp [References.answer?]
  tag := by
    apply answersWhile_of_answer?
    · simp [hpath, hreference]
    · simp [References.answer?]
    · simp [References.answer?]

end WorkingCopies.Reference
