import WorkingCopies.Proofs.Reference.Consult
import WorkingCopies.WorkingCopy

/-!
# The hash of a reference

A reference is classified by its full names and then given to git by a shorter one, which git looks
up anew. The hash is that of the reference that was classified exactly where the shorter name
reaches it. For a local branch the name is the bare one, so a tag of the same name hides the branch.
-/

namespace WorkingCopies

open Git (Call Command References)
open Reference (Consults Kind classify fullName? qualify)

variable {host : Host} {git : Git} {before : Workspace} {workingCopy : Path}
  {references start : References} {reference name hash text : String} {property : Git.View → Prop}

/-- Whether a call succeeded and wrote a text, but for white space at its ends. -/
def Git.Call.Writes (call : Call) (text : String) : Prop :=
  ∃ folder reply, call.outcome = .finished folder reply ∧ reply.status = 0 ∧
    Text.trim (Text.decodeLossy reply.output) = text

/-- A call that wrote something was a success. -/
theorem Git.Call.Writes.succeeded {call : Call} (h : call.Writes text) : call.succeeded = true := by
  obtain ⟨folder, reply, houtcome, hstatus, -⟩ := h
  simp [Call.succeeded, houtcome, hstatus]

/-- What a call wrote is the result of reading it as a text. -/
theorem Git.ensures_executeText {arguments : List String} (hgit : host.git = some git)
    (h : (git.attempt before (some workingCopy) arguments).Writes text) :
    Ensures (executeText workingCopy arguments) host before fun result _ _ => result = .ok text := by
  obtain ⟨folder, reply, houtcome, hstatus, htext⟩ := h
  have hrun : Ensures (execute workingCopy arguments) host before fun result _ _ =>
      result = .ok reply.output := by
    refine ensures_execute hgit fun _ _ => ?_
    rw [houtcome, Command.conclude, if_pos hstatus]
  refine Ensures.bind hrun ?_ ?_
  · intro output _ _ houtput
    cases houtput
    exact Ensures.pure (congrArg Except.ok htext)
  · intro failure _ _ hfailure
    cases hfailure

namespace WorkingCopy

/-- The arguments that ask for the commit of a name. -/
def hashArguments (name : String) : List String :=
  ["rev-parse", "--verify", name ++ "^\x7bcommit\x7d"]

/-- A git that, wherever a property holds of what it goes by, writes the hash of the commit that a
reference leads to by one of its spellings. -/
def WritesHashes (git : Git) (workingCopy : Path) (property : Git.View → Prop)
    (references : References) (reference : String) : Prop :=
  ∀ kind hash, references.commit? (qualify reference kind) = some hash →
    ∀ workspace : Workspace, property workspace.view →
      (git.attempt workspace (some workingCopy)
        (hashArguments (qualify reference kind))).Writes hash

/-- The git that keeps references writes hashes, if these are texts that survive being written. -/
theorem writesHashes_git (start references : References)
    (hpath : '\x00' ∉ workingCopy.text.toList) (hreference : '\x00' ∉ reference.toList)
    (htexts : ∀ kind hash, references.commit? (qualify reference kind) = some hash →
      Text.trim (Text.decodeLossy (Text.encode hash)) = hash) :
    WritesHashes start.git workingCopy
      (fun view => view.2.isFolder workingCopy = true ∧ start.behind view.1 = references)
      references reference := by
  intro kind hash hcommit workspace hworkspace
  obtain ⟨hfolder, hbehind⟩ := hworkspace
  have hbehind : start.behind workspace.calls = references := hbehind
  have hname : '\x00' ∉ (qualify reference kind).toList := by
    cases kind <;> simp [qualify, Reference.remoteName, hreference]
  have hnul : ∀ text ∈ workingCopy.text :: hashArguments (qualify reference kind),
      '\x00' ∉ text.toList := by
    simp [hashArguments, hpath, hname]
  have hanswer : references.answer? (hashArguments (qualify reference kind)) =
      some (references, hash) := by
    simp [hashArguments, References.answer?, hcommit]
  obtain ⟨folder, houtcome⟩ :
      ∃ folder, (start.git.attempt workspace (some workingCopy)
        (hashArguments (qualify reference kind))).outcome = .finished folder _ :=
    References.outcome_attempt_git hfolder hnul
  rw [hbehind, hanswer] at houtcome
  exact ⟨folder, _, houtcome, rfl, htexts kind hash hcommit⟩

/-- The hash of a branch or a tag is that of the commit which its name, as it is given to git, leads
to. That is the commit of its full name exactly where the one name reaches the other. -/
theorem target?_hashOf_iff_reaches {environment : Environment} {kind : Kind} {full : String}
    (h : Consults git workingCopy property references reference)
    (hhashes : WritesHashes git workingCopy property references reference)
    (hbefore : property before.view)
    (hkind : ((classify workingCopy reference).carryOut ⟨some git, environment⟩ before).1 =
      .ok kind)
    (hfull : fullName? reference kind = some full) :
    ∃ hash, ((hashOf workingCopy reference).carryOut ⟨some git, environment⟩ before).1 = .ok hash ∧
      references.commit? (qualify reference kind) = some hash ∧
      (references.target? full = some (.commit hash) ↔
        references.Reaches (qualify reference kind) full) := by
  have hgit : (⟨some git, environment⟩ : Host).git = some git := rfl
  have hclassify := h.ensures_classify hgit hbefore hfull hkind
  have hhash : Ensures (hashOf workingCopy reference) ⟨some git, environment⟩ before
      fun result _ _ => ∃ hash, result = .ok hash ∧
        references.commit? (qualify reference kind) = some hash := by
    have hname : Ensures (Reference.qualifiedName workingCopy reference) ⟨some git, environment⟩
        before fun result _ after => result = .ok (qualify reference kind) ∧
          property after.view ∧ ∃ hash, references.commit? (qualify reference kind) = some hash := by
      refine Ensures.bind hclassify ?_ ?_
      · intro found _ after hfound
        obtain ⟨hsame, hrest⟩ := hfound
        cases hsame
        exact Ensures.pure ⟨rfl, hrest⟩
      · intro failure _ _ hfailure
        cases hfailure.1
    refine Ensures.bind hname ?_ ?_
    · intro name _ after hafter
      obtain ⟨hsame, hproperty, hash, hcommit⟩ := hafter
      cases hsame
      have hwrites := hhashes kind hash hcommit after hproperty
      exact (Git.ensures_executeText hgit hwrites).mono fun _ _ _ hresult => ⟨hash, hresult, hcommit⟩
    · intro failure _ _ hfailure
      cases hfailure.1
  obtain ⟨-, -, hash, hresult, hcommit⟩ := hhash
  exact ⟨hash, hresult, hcommit, References.target?_eq_some_iff_reaches
    (Reference.mem_fullNames_of_fullName? hfull) hcommit⟩

/-- A branch that only the remote has. -/
theorem target?_hashOf_of_remote_branch :
    let start := References.ofList [("refs/heads/main", .commit "a0"),
      ("refs/remotes/origin/main", .commit "b0"), ("refs/remotes/origin/next", .commit "c0")]
      (.branch "main")
    start.target? "refs/remotes/origin/next" = some (.commit "c0") ∧
      ((hashOf ⟨"/"⟩ "next").carryOut ⟨some start.git, ⟨[]⟩⟩ { files := {} }).1 = .ok "c0" := by
  intro start
  have hpath : '\x00' ∉ (⟨"/"⟩ : Path).text.toList := by decide
  have hreference : '\x00' ∉ "next".toList := by decide
  have htexts : ∀ kind hash, start.commit? (qualify "next" kind) = some hash →
      Text.trim (Text.decodeLossy (Text.encode hash)) = hash := by
    intro kind hash hcommit
    have hcommits : start.commit? (qualify "next" kind) =
        if kind = .remoteBranch then some "c0" else none := by
      cases kind <;> decide +kernel
    rw [hcommits] at hcommit
    split at hcommit <;> cases hcommit
    decide +kernel
  have hkind : ((Reference.classify ⟨"/"⟩ "next").carryOut ⟨some start.git, ⟨[]⟩⟩
      { files := {} }).1 = .ok .remoteBranch := by decide +kernel
  have hreaches : start.Reaches "origin/next" "refs/remotes/origin/next" := by
    refine ⟨.commit "c0", by decide +kernel, fun other hother => ?_⟩
    have hnone : ((References.fullNames "origin/next").takeWhile
        (· ≠ "refs/remotes/origin/next")).findSome? start.target? = none := by decide +kernel
    rw [hnone] at hother
    cases hother
  have hfull : fullName? "next" .remoteBranch = some "refs/remotes/origin/next" := by
    decide +kernel
  obtain ⟨hash, hresult, -, hiff⟩ := target?_hashOf_iff_reaches
    (Reference.consults_git start start hpath hreference)
    (writesHashes_git start start hpath hreference htexts) ⟨by decide +kernel, rfl⟩ hkind hfull
  have htarget := hiff.mpr hreaches
  have hsame : start.target? "refs/remotes/origin/next" = some (.commit "c0") := by
    decide +kernel
  rw [hsame] at htarget
  cases htarget
  exact ⟨hsame, hresult⟩

/-- A tag at another commit hides the local branch of its name: the hash given for the branch is the
one of the tag. -/
theorem hashOf_ne_branch_of_tag :
    let start := References.ofList [("refs/heads/v1", .commit "b0"), ("refs/tags/v1", .commit "a0")]
      (.branch "v1")
    let property : Git.View → Prop := fun view =>
      view.2.isFolder ⟨"/"⟩ = true ∧ start.behind view.1 = start
    let host : Host := ⟨some start.git, ⟨[]⟩⟩
    Consults start.git ⟨"/"⟩ property start "v1" ∧ WritesHashes start.git ⟨"/"⟩ property start "v1" ∧
      ((Reference.classify ⟨"/"⟩ "v1").carryOut host { files := {} }).1 = .ok .localBranch ∧
      start.target? "refs/heads/v1" = some (.commit "b0") ∧
      ((hashOf ⟨"/"⟩ "v1").carryOut host { files := {} }).1 = .ok "a0" := by
  intro start property host
  have hpath : '\x00' ∉ (⟨"/"⟩ : Path).text.toList := by decide
  have hreference : '\x00' ∉ "v1".toList := by decide
  have htexts : ∀ kind hash, start.commit? (qualify "v1" kind) = some hash →
      Text.trim (Text.decodeLossy (Text.encode hash)) = hash := by
    intro kind hash hcommit
    have hcommits : start.commit? (qualify "v1" kind) =
        if kind = .remoteBranch then none else some "a0" := by
      cases kind <;> decide +kernel
    rw [hcommits] at hcommit
    split at hcommit <;> cases hcommit
    decide +kernel
  refine ⟨Reference.consults_git start start hpath hreference,
    writesHashes_git start start hpath hreference htexts, ?_, ?_, ?_⟩ <;> decide +kernel

end WorkingCopy

end WorkingCopies
