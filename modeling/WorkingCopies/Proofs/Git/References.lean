import WorkingCopies.Reference

/-!
# The references of a repository

A repository has references, each under a full name. Given a short name, git takes the first of
four full names that there is a reference of, so a tag hides a branch of its name, and a branch
hides one of the remote. A short name therefore leads to a given reference only where nothing else
is found before it. What a checkout does is said of the references before and after it.
-/

namespace WorkingCopies

namespace Git

/-- What a reference stands for once tags have been followed. -/
inductive Target where
  | commit (hash : String)
  /-- A file or a folder, which a tag may mark as well. -/
  | contents
  deriving Repr, DecidableEq, Inhabited

/-- Where a working copy stands. -/
inductive Head where
  | branch (name : String)
  /-- At a commit, and on no branch. -/
  | detached (hash : String)
  deriving Repr, DecidableEq, Inhabited

/-- The references of a repository, and where its working copy stands. -/
structure References where
  /-- What the reference of a full name stands for, if there is one. -/
  target? : String → Option Target
  /-- The commit that a text leads to which is the name of no reference: a hash, for one. -/
  revision? : String → Option String
  head : Head

namespace References

/-- The full names that git tries for a name, the first one first. -/
def fullNames (name : String) : List String :=
  ["refs/" ++ name, "refs/tags/" ++ name, "refs/heads/" ++ name, "refs/remotes/" ++ name]

/-- What a name stands for. -/
def resolve? (references : References) (name : String) : Option Target :=
  ((fullNames name).findSome? references.target?).or ((references.revision? name).map .commit)

/-- The commit that a name leads to. -/
def commit? (references : References) (name : String) : Option String :=
  match references.resolve? name with
  | some (.commit hash) => some hash
  | _ => none

/-- Whether a name leads to the reference of a full name, or to nothing else than that stands for:
there is such a reference, and what git finds before it stands for the same. -/
def Reaches (references : References) (name full : String) : Prop :=
  ∃ target, references.target? full = some target ∧
    ∀ other, ((fullNames name).takeWhile (· ≠ full)).findSome? references.target? = some other →
      other = target

/-- Whether the working copy is on a branch that stands at a commit. -/
def IsOn (references : References) (name hash : String) : Prop :=
  references.head = .branch name ∧ references.target? ("refs/heads/" ++ name) = some (.commit hash)

/-- Whether a bare name is good for a branch at a commit: there is such a branch, or the name leads
to nothing and the remote has such a branch. -/
def OffersBranch (references : References) (name hash : String) : Prop :=
  references.target? ("refs/heads/" ++ name) = some (.commit hash) ∨
    (references.resolve? name = none ∧
      references.target? ("refs/remotes/origin/" ++ name) = some (.commit hash))

/-- What checking out a bare name has done to the references if it succeeded. -/
inductive Switched (before : References) (name : String) (after : References) : Prop where
  /-- There is a branch of the name, and the working copy is on it. -/
  | onto {target : Target} (hbranch : before.target? ("refs/heads/" ++ name) = some target)
      (hkept : after.target? ("refs/heads/" ++ name) = some target)
      (hhead : after.head = .branch name) : Switched before name after
  /-- There is none, and the working copy is at the commit that the name leads to. -/
  | detached {hash : String} (hbranch : before.target? ("refs/heads/" ++ name) = none)
      (hcommit : before.commit? name = some hash) (hhead : after.head = .detached hash) :
      Switched before name after
  /-- The name leads to nothing, and a branch is made that follows the one of the remote. -/
  | following {target : Target} (hnothing : before.resolve? name = none)
      (hremote : before.target? ("refs/remotes/origin/" ++ name) = some target)
      (hmade : after.target? ("refs/heads/" ++ name) = some target)
      (hhead : after.head = .branch name) : Switched before name after

/-- What making a branch at the commit of a name has done to the references if it succeeded. -/
def Branched (before : References) (name branch : String) (after : References) : Prop :=
  ∃ hash, before.commit? name = some hash ∧ after.IsOn branch hash

variable {references before after : References} {name full hash : String}

/-- A name leads to a commit if that is what it stands for. -/
theorem commit?_eq_some_iff :
    references.commit? name = some hash ↔ references.resolve? name = some (.commit hash) := by
  unfold commit?
  split
  · next other h => simp [h]
  · next h =>
    constructor
    · intro hnone
      cases hnone
    · intro hsome
      exact absurd hsome (h hash)

/-- A name stands for what is found before one of its full names, and else for what that one does. -/
theorem resolve?_eq (hfull : full ∈ fullNames name) {target : Target}
    (htarget : references.target? full = some target) :
    references.resolve? name =
      (((fullNames name).takeWhile (· ≠ full)).findSome? references.target?).or (some target) := by
  obtain ⟨earlier, later, hsplit, hearlier⟩ := List.eq_append_cons_of_mem hfull
  have htake : (fullNames name).takeWhile (· ≠ full) = earlier := by
    rw [hsplit, List.takeWhile_append_of_pos]
    · simp
    · intro other hother
      have hne : other ≠ full := fun hsame => hearlier (hsame ▸ hother)
      simpa using hne
  rw [htake, resolve?, hsplit, List.findSome?_append, List.findSome?_cons, htarget, Option.or_assoc]
  rfl

/-- What a reference stands for is the commit that one of its names leads to exactly where the name
reaches the reference. -/
theorem target?_eq_some_iff_reaches (hfull : full ∈ fullNames name)
    (hname : references.commit? name = some hash) :
    references.target? full = some (.commit hash) ↔ references.Reaches name full := by
  rw [commit?_eq_some_iff] at hname
  constructor
  · intro htarget
    refine ⟨_, htarget, fun other hother => ?_⟩
    rw [resolve?_eq hfull htarget, hother] at hname
    exact Option.some.inj hname
  · intro hreaches
    obtain ⟨target, htarget, hfirst⟩ := hreaches
    rw [resolve?_eq hfull htarget] at hname
    cases hfound : ((fullNames name).takeWhile (· ≠ full)).findSome? references.target? with
    | none =>
      rw [hfound, Option.none_or] at hname
      rw [htarget, hname]
    | some other =>
      obtain rfl := hfirst other hfound
      rw [hfound, Option.some_or] at hname
      rw [htarget, hname]

/-- A name that leads to nothing is the name of no branch. -/
theorem target?_branch_eq_none (h : references.resolve? name = none) :
    references.target? ("refs/heads/" ++ name) = none := by
  rw [resolve?, Option.or_eq_none_iff, List.findSome?_eq_none_iff] at h
  exact h.1 _ (by simp [fullNames])

/-- Checking out a bare name ends on a branch at a commit exactly if the name is good for one. -/
theorem Switched.isOn_iff (h : before.Switched name after) :
    after.IsOn name hash ↔ before.OffersBranch name hash := by
  cases h with
  | onto hbranch hkept hhead =>
    have hresolve : before.resolve? name ≠ none := by
      intro hnothing
      rw [target?_branch_eq_none hnothing] at hbranch
      cases hbranch
    simp [IsOn, OffersBranch, hhead, hbranch, hkept, hresolve]
  | detached hbranch hcommit hhead =>
    have hresolve : before.resolve? name ≠ none := by
      rw [commit?_eq_some_iff.mp hcommit]
      simp
    simp [IsOn, OffersBranch, hhead, hbranch, hresolve]
  | following hnothing hremote hmade hhead =>
    simp [IsOn, OffersBranch, hhead, hremote, hmade, hnothing, target?_branch_eq_none hnothing]

/-- A branch made at the commit of a name stands at this commit. -/
theorem Branched.isOn {branch : String} (h : before.Branched name branch after)
    (hname : before.commit? name = some hash) : after.IsOn branch hash := by
  obtain ⟨other, hother, hon⟩ := h
  rw [hname] at hother
  cases hother
  exact hon

end References

end Git

namespace Reference

/-- The full name that a reference of some kind has. A commit has none. -/
def fullName? (reference : String) : Kind → Option String
  | .localBranch => some ("refs/heads/" ++ reference)
  | .remoteBranch => some ("refs/remotes/origin/" ++ reference)
  | .tag => some ("refs/tags/" ++ reference)
  | .hash => none

/-- The full name is among those that git tries for the reference as it is given to git. -/
theorem mem_fullNames_of_fullName? {reference full : String} {kind : Kind}
    (h : fullName? reference kind = some full) :
    full ∈ Git.References.fullNames (qualify reference kind) := by
  cases kind with
  | localBranch =>
    cases h
    simp [Git.References.fullNames, qualify]
  | remoteBranch =>
    cases h
    have hname : "refs/remotes/" ++ ("origin/" ++ reference) = "refs/remotes/origin/" ++ reference :=
      (String.append_assoc ..).symm
    simp [Git.References.fullNames, qualify, remoteName, hname]
  | tag =>
    cases h
    have hname : "refs/" ++ ("tags/" ++ reference) = "refs/tags/" ++ reference :=
      (String.append_assoc ..).symm
    simp [Git.References.fullNames, qualify, hname]
  | hash => cases h

/-- Nothing hides a tag: its full name is the first that git tries for `tags/` and the name. -/
theorem reaches_tag {references : Git.References} {reference : String} {target : Git.Target}
    (h : references.target? ("refs/tags/" ++ reference) = some target) :
    references.Reaches (qualify reference .tag) ("refs/tags/" ++ reference) := by
  refine ⟨target, h, fun other hother => ?_⟩
  have hname : "refs/" ++ ("tags/" ++ reference) = "refs/tags/" ++ reference :=
    (String.append_assoc ..).symm
  simp [Git.References.fullNames, qualify, hname] at hother

end Reference

end WorkingCopies
