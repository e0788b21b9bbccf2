import Mathlib.Data.Set.Insert
import WorkingCopies.Proofs.Commands

/-!
# The kind that the probes give

Which kind a reference is of depends on the answers to five probes. Where git answers them by three
fixed sets, of the names that lead to a commit, of the branches and of the tags, the kind is a
function of these sets, and a name as git has to be given it leads to a commit.
-/

namespace WorkingCopies.Reference

open Git (succeeds)

variable {host : Host} {git : Git} {before : Workspace} {workingCopy : Path}
  {commits branches tags : Set String} {reference : String}

/-- A git that answers a probe in a working copy by a fixed set of names, for as long as there is
the working copy, and leaves the working copy where it is. -/
def Answers (git : Git) (workingCopy : Path) (probe : String → List String) (names : Set String) :
    Prop :=
  ∀ (workspace : Workspace) (name : String), workspace.files.isFolder workingCopy = true →
    ((git.attempt workspace (some workingCopy) (probe name)).succeeded = true ↔ name ∈ names) ∧
      (git.attempt workspace (some workingCopy) (probe name)).after.isFolder workingCopy = true

/-- A git that succeeds with listed commands and does nothing answers each probe by the names that
the list has for it. -/
theorem answers_listed {listed : List (List String)} {probe : String → List String}
    {names : Set String} (hnames : ∀ name, probe name ∈ listed ↔ name ∈ names)
    (hlisted : ∀ arguments ∈ listed, ∀ text ∈ workingCopy.text :: arguments,
      '\x00' ∉ text.toList) :
    Answers (fun _ files request => .ok (⟨if request.arguments ∈ listed then 0 else 1, [], []⟩, files))
      workingCopy probe names := by
  intro workspace name hfolder
  rw [← hnames name]
  unfold Git.attempt Git.comesTo
  cases hstart : Git.startingFolder workspace.files (some workingCopy) (probe name) with
  | ok location =>
    refine ⟨?_, hfolder⟩
    simp [Git.Call.succeeded]
  | error fault =>
    refine ⟨iff_of_false Bool.false_ne_true fun hmem => ?_, hfolder⟩
    obtain ⟨location, hlocation⟩ :=
      Git.startingFolder_of_isFolder hfolder (hlisted (probe name) hmem)
    rw [hlocation] at hstart
    cases hstart

/-- A git that answers a command in a working copy by a fixed condition wherever a property holds
of what it goes by, and the property holds on. -/
def AnswersWhile (git : Git) (workingCopy : Path) (property : Git.View → Prop)
    (arguments : List String) (condition : Prop) : Prop :=
  ∀ workspace : Workspace, property workspace.view →
    ((git.attempt workspace (some workingCopy) arguments).succeeded = true ↔ condition) ∧
      property (workspace.view.behind (git.attempt workspace (some workingCopy) arguments))

/-- What follows a command that is answered by a condition is told whether the condition holds, and
the property still does. -/
theorem AnswersWhile.ensures_bind {α : Type} {property : Git.View → Prop} {arguments : List String}
    {condition : Prop} {next : Bool → Operation α} {post : Except Failure α → Workspace → Prop}
    (h : AnswersWhile git workingCopy property arguments condition) (hgit : host.git = some git)
    (hbefore : property before.view)
    (hyes : condition → ∀ after : Workspace, property after.view →
      Ensures (next true) host after fun result _ last => post result last)
    (hno : ¬ condition → ∀ after : Workspace, property after.view →
      Ensures (next false) host after fun result _ last => post result last) :
    Ensures (succeeds workingCopy arguments >>= next) host before fun result _ last =>
      post result last := by
  obtain ⟨hanswer, hkept⟩ := h before hbefore
  have hprobe : Ensures (succeeds workingCopy arguments) host before fun result _ after =>
      (∃ answer, result = .ok answer ∧ (answer = true ↔ condition)) ∧ property after.view :=
    ensures_succeeds hgit fun after hafter => ⟨⟨_, rfl, hanswer⟩, by rwa [hafter]⟩
  refine Ensures.bind hprobe ?_ ?_
  · intro answer _ after hanswered
    obtain ⟨⟨_, ⟨⟩, hiff⟩, hafter⟩ := hanswered
    cases answer with
    | true => exact hyes (hiff.mp rfl) after hafter
    | false => exact hno (fun hcondition => Bool.false_ne_true (hiff.mpr hcondition)) after hafter
  · intro failure _ _ hanswered
    obtain ⟨⟨_, ⟨⟩, -⟩, -⟩ := hanswered

/-- A git that answers all probes by fixed sets: the names that lead to a commit, the branches and
the tags. -/
structure AnswersProbes (git : Git) (workingCopy : Path) (commits branches tags : Set String) :
    Prop where
  commit : Answers git workingCopy (fun name => ["merge-base", name, name]) commits
  branch : Answers git workingCopy
    (fun name => ["show-ref", "--verify", "--quiet", "refs/heads/" ++ name]) branches
  tag : Answers git workingCopy
    (fun name => ["show-ref", "--verify", "--quiet", "refs/tags/" ++ name]) tags

/-- Whether a reference stands for itself: it leads to a commit, as a branch or as no name of a
branch or tag. -/
def StandsAlone (commits branches tags : Set String) (reference : String) : Prop :=
  (reference ∈ commits ∧ reference ∈ branches) ∨
    (reference ∈ commits ∧ reference ∉ branches ∧ reference ∉ tags)

/-- The kinds that three sets give a reference, and the failure where they give none. -/
inductive Classified (commits branches tags : Set String) (reference : String) :
    Except Failure Kind → Prop where
  | localBranch (hcommit : reference ∈ commits) (hbranch : reference ∈ branches) :
      Classified commits branches tags reference (.ok .localBranch)
  | hash (hcommit : reference ∈ commits) (hbranch : reference ∉ branches)
      (htag : reference ∉ tags) : Classified commits branches tags reference (.ok .hash)
  | remoteBranch (halone : ¬ StandsAlone commits branches tags reference)
      (hremote : qualify reference .remoteBranch ∈ commits) :
      Classified commits branches tags reference (.ok .remoteBranch)
  | tag (halone : ¬ StandsAlone commits branches tags reference)
      (hremote : qualify reference .remoteBranch ∉ commits)
      (htag : qualify reference .tag ∈ commits) :
      Classified commits branches tags reference (.ok .tag)
  | unresolvable (halone : ¬ StandsAlone commits branches tags reference)
      (hremote : qualify reference .remoteBranch ∉ commits)
      (htag : qualify reference .tag ∉ commits) :
      Classified commits branches tags reference (.error (.unresolvable reference))

namespace Classified

variable {result : Except Failure Kind}

/-- A local branch is a branch that leads to a commit. -/
theorem eq_localBranch_iff (h : Classified commits branches tags reference result) :
    result = .ok .localBranch ↔ reference ∈ commits ∧ reference ∈ branches := by
  cases h <;> simp_all [StandsAlone]

/-- A commit is what leads to one and is the name of no branch and no tag. -/
theorem eq_hash_iff (h : Classified commits branches tags reference result) :
    result = .ok .hash ↔ reference ∈ commits ∧ reference ∉ branches ∧ reference ∉ tags := by
  cases h <;> simp_all [StandsAlone]

/-- A branch of the remote is what does not stand for itself and is found behind the remote. -/
theorem eq_remoteBranch_iff (h : Classified commits branches tags reference result) :
    result = .ok .remoteBranch ↔ ¬ StandsAlone commits branches tags reference ∧
      qualify reference .remoteBranch ∈ commits := by
  cases h <;> simp_all [StandsAlone]

/-- A tag is what is neither of these and is found among the tags. -/
theorem eq_tag_iff (h : Classified commits branches tags reference result) :
    result = .ok .tag ↔ ¬ StandsAlone commits branches tags reference ∧
      qualify reference .remoteBranch ∉ commits ∧ qualify reference .tag ∈ commits := by
  cases h <;> simp_all [StandsAlone]

/-- All else fails. -/
theorem eq_unresolvable_iff (h : Classified commits branches tags reference result) :
    result = .error (.unresolvable reference) ↔ ¬ StandsAlone commits branches tags reference ∧
      qualify reference .remoteBranch ∉ commits ∧ qualify reference .tag ∉ commits := by
  cases h <;> simp_all [StandsAlone]

/-- There is but one failure. -/
theorem eq_unresolvable {failure : Failure}
    (h : Classified commits branches tags reference (.error failure)) :
    failure = .unresolvable reference := by
  cases h
  rfl

/-- A reference as git has to be given it leads to a commit. -/
theorem qualify_mem {kind : Kind}
    (h : Classified commits branches tags reference (.ok kind)) :
    qualify reference kind ∈ commits := by
  cases h <;> assumption

/-- Where all tags are found among the tags, a failure says that no spelling leads to a commit. -/
theorem exists_error_iff (h : Classified commits branches tags reference result)
    (htags : ∀ name ∈ tags, qualify name .tag ∈ commits) :
    (∃ failure, result = .error failure) ↔ reference ∉ commits ∧
      qualify reference .remoteBranch ∉ commits ∧ qualify reference .tag ∉ commits := by
  have hcommit (halone : ¬ StandsAlone commits branches tags reference)
      (htag : qualify reference .tag ∉ commits) : reference ∉ commits := by
    intro hmem
    by_cases hbranch : reference ∈ branches
    · exact halone (.inl ⟨hmem, hbranch⟩)
    · exact halone (.inr ⟨hmem, hbranch, fun hname => htag (htags reference hname)⟩)
  cases h <;> simp_all

end Classified

/-- A git that answers the probes for one reference by fixed sets wherever a property holds of what
it goes by, and the property holds on. -/
structure AnswersFor (git : Git) (workingCopy : Path) (property : Git.View → Prop)
    (commits branches tags : Set String) (reference : String) : Prop where
  commit (kind : Kind) : AnswersWhile git workingCopy property
    ["merge-base", qualify reference kind, qualify reference kind]
    (qualify reference kind ∈ commits)
  branch : AnswersWhile git workingCopy property
    ["show-ref", "--verify", "--quiet", "refs/heads/" ++ reference] (reference ∈ branches)
  tag : AnswersWhile git workingCopy property
    ["show-ref", "--verify", "--quiet", "refs/tags/" ++ reference] (reference ∈ tags)

namespace AnswersFor

variable {property : Git.View → Prop}

/-- A reference that does not stand for itself is a branch of the remote, or else a tag, or else
nothing. -/
theorem ensures_classifyQualified
    (h : AnswersFor git workingCopy property commits branches tags reference)
    (hgit : host.git = some git) (hbefore : property before.view)
    (halone : ¬ StandsAlone commits branches tags reference) :
    Ensures (classifyQualified workingCopy reference) host before fun result _ after =>
      Classified commits branches tags reference result ∧ property after.view := by
  refine (h.commit .remoteBranch).ensures_bind hgit hbefore ?_ ?_
  · exact fun hremote _ hafter => Ensures.pure ⟨.remoteBranch halone hremote, hafter⟩
  · intro hremote after hafter
    refine (h.commit .tag).ensures_bind hgit hafter ?_ ?_
    · exact fun htag _ hlast => Ensures.pure ⟨.tag halone hremote htag, hlast⟩
    · exact fun htag _ hlast => Ensures.throw ⟨.unresolvable halone hremote htag, hlast⟩

/-- The sets give the kind of every reference but `HEAD`. -/
theorem ensures_classify (h : AnswersFor git workingCopy property commits branches tags reference)
    (hgit : host.git = some git) (hbefore : property before.view) (hhead : reference ≠ "HEAD") :
    Ensures (classify workingCopy reference) host before fun result _ after =>
      Classified commits branches tags reference result ∧ property after.view := by
  unfold classify
  rw [if_neg hhead]
  refine (h.commit .hash).ensures_bind hgit hbefore ?_ ?_
  · intro hcommit after hafter
    refine h.branch.ensures_bind hgit hafter ?_ ?_
    · exact fun hbranch _ hlast => Ensures.pure ⟨.localBranch hcommit hbranch, hlast⟩
    · intro hbranch after hafter
      refine h.tag.ensures_bind hgit hafter ?_ ?_
      · intro htag after hafter
        -- a name that only a tag has leads to a commit and is yet looked for behind the prefixes
        refine h.ensures_classifyQualified hgit hafter ?_
        intro hsettled
        rcases hsettled with ⟨-, hmem⟩ | ⟨-, -, hnot⟩
        · exact hbranch hmem
        · exact hnot htag
      · exact fun htag _ hlast => Ensures.pure ⟨.hash hcommit hbranch htag, hlast⟩
  · intro hcommit after hafter
    refine h.ensures_classifyQualified hgit hafter ?_
    intro hsettled
    rcases hsettled with ⟨hmem, -⟩ | ⟨hmem, -⟩ <;> exact hcommit hmem

end AnswersFor

namespace AnswersProbes

/-- A git that answers all probes does so for each reference, for as long as there is the working
copy. -/
theorem answersFor (h : AnswersProbes git workingCopy commits branches tags) (reference : String) :
    AnswersFor git workingCopy (fun view => view.2.isFolder workingCopy = true) commits branches
      tags reference where
  commit kind workspace hfolder := h.commit workspace (qualify reference kind) hfolder
  branch workspace hfolder := h.branch workspace reference hfolder
  tag workspace hfolder := h.tag workspace reference hfolder

/-- The sets give the kind of every reference but `HEAD`. -/
theorem ensures_classify (h : AnswersProbes git workingCopy commits branches tags)
    (hgit : host.git = some git) (hfolder : before.files.isFolder workingCopy = true)
    (hhead : reference ≠ "HEAD") :
    Ensures (classify workingCopy reference) host before fun result _ _ =>
      Classified commits branches tags reference result :=
  ((h.answersFor reference).ensures_classify hgit hfolder hhead).mono fun _ _ _ => And.left

/-- The name that a reference is given to git by leads to a commit. -/
theorem ensures_qualifiedName (h : AnswersProbes git workingCopy commits branches tags)
    (hgit : host.git = some git) (hfolder : before.files.isFolder workingCopy = true)
    (hhead : reference ≠ "HEAD") :
    Ensures (qualifiedName workingCopy reference) host before fun result _ _ =>
      ∀ name, result = .ok name → name ∈ commits := by
  refine Ensures.bind (h.ensures_classify hgit hfolder hhead) ?_ ?_
  · intro kind _ after hkind
    refine Ensures.pure ?_
    intro _ hsame
    cases hsame
    exact hkind.qualify_mem
  · intro failure _ _ _ _ hsame
    cases hsame

end AnswersProbes

/-- Where git answers the probes by fixed sets, these decide the kind of every reference but `HEAD`.
The name that the reference is given to git by leads to a commit; and where all tags are found among
the tags, a failure says that the reference leads to a commit in no spelling. -/
theorem classify_iff {environment : Environment}
    (h : AnswersProbes git workingCopy commits branches tags)
    (hfolder : before.files.isFolder workingCopy = true) (hhead : reference ≠ "HEAD") :
    let host : Host := ⟨some git, environment⟩
    let result := ((classify workingCopy reference).carryOut host before).1
    let isSettled := StandsAlone commits branches tags reference
    (result = .ok .localBranch ↔ reference ∈ commits ∧ reference ∈ branches) ∧
      (result = .ok .hash ↔ reference ∈ commits ∧ reference ∉ branches ∧ reference ∉ tags) ∧
      (result = .ok .remoteBranch ↔ ¬ isSettled ∧ "origin/" ++ reference ∈ commits) ∧
      (result = .ok .tag ↔
        ¬ isSettled ∧ "origin/" ++ reference ∉ commits ∧ "tags/" ++ reference ∈ commits) ∧
      (result = .error (.unresolvable reference) ↔
        ¬ isSettled ∧ "origin/" ++ reference ∉ commits ∧ "tags/" ++ reference ∉ commits) ∧
      (∀ failure, result = .error failure → failure = .unresolvable reference) ∧
      (∀ name, ((qualifiedName workingCopy reference).carryOut host before).1 = .ok name →
        name ∈ commits) ∧
      ((∀ name ∈ tags, "tags/" ++ name ∈ commits) →
        ((∃ failure, result = .error failure) ↔ reference ∉ commits ∧
          "origin/" ++ reference ∉ commits ∧ "tags/" ++ reference ∉ commits)) := by
  intro host result isSettled
  obtain ⟨-, -, hresult⟩ := h.ensures_classify (rfl : host.git = some git) hfolder hhead
  obtain ⟨-, -, hname⟩ := h.ensures_qualifiedName (rfl : host.git = some git) hfolder hhead
  have hclassified : Classified commits branches tags reference result := hresult
  refine ⟨hclassified.eq_localBranch_iff, hclassified.eq_hash_iff, hclassified.eq_remoteBranch_iff,
    hclassified.eq_tag_iff, hclassified.eq_unresolvable_iff, ?_, hname,
    hclassified.exists_error_iff⟩
  intro failure hfailure
  rw [hfailure] at hclassified
  exact hclassified.eq_unresolvable

/-- A name that is that of a tag alone, found among the tags. -/
theorem classify_iff_of_listed_tag :
    let git : Git := fun _ files request =>
      .ok (⟨if request.arguments ∈ [["merge-base", "v1", "v1"], ["merge-base", "tags/v1", "tags/v1"],
        ["show-ref", "--verify", "--quiet", "refs/tags/v1"]] then 0 else 1, [], []⟩, files)
    AnswersProbes git ⟨"/"⟩ {"v1", "tags/v1"} ∅ {"v1"} ∧
      ((classify ⟨"/"⟩ "v1").carryOut ⟨some git, ⟨[]⟩⟩ { files := {} }).1 = .ok .tag := by
  intro git
  have hbranches (name : String) : "refs/heads/" ++ name ≠ "refs/tags/v1" := by
    intro h
    simpa using congrArg String.toList h
  have htags (name : String) : "refs/tags/" ++ name = "refs/tags/v1" ↔ name = "v1" := by
    rw [← String.toList_inj, ← String.toList_inj]
    simp
  have hprobes : AnswersProbes git ⟨"/"⟩ {"v1", "tags/v1"} ∅ {"v1"} := by
    refine ⟨answers_listed ?_ (by decide), answers_listed ?_ (by decide),
      answers_listed ?_ (by decide)⟩
    · simp
    · simpa using hbranches
    · simpa using htags
  have hfolder : Workspace.files { files := {} } |>.isFolder ⟨"/"⟩ := by decide +kernel
  have hreference : "v1" ≠ "HEAD" := by decide
  obtain ⟨-, -, -, htag, -⟩ := classify_iff hprobes hfolder hreference
  exact ⟨hprobes, htag.mpr ⟨by simp [StandsAlone], by simp, by simp⟩⟩

end WorkingCopies.Reference
