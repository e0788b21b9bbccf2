import WorkingCopies.Proofs.Git.Attempt
import WorkingCopies.Proofs.Git.References

/-!
# A git that keeps references

What is assumed of git where references matter is what its manual says. The git of this module does
just that: it starts with some references, answers by those that the calls so far have left, and
touches no file. It exists for all references that a repository may start with.
-/

namespace WorkingCopies.Git.References

/-- The references of a list. -/
def ofList (targets : List (String × Target)) (head : Head) : References where
  target? full := targets.lookup full
  revision? _ := none
  head := head

/-- Put a branch in place, and the working copy on it. -/
def land (references : References) (branch : String) (target : Target) : References where
  target? full :=
    if full = "refs/heads/" ++ branch then some target else references.target? full
  revision? := references.revision?
  head := .branch branch

/-- What checking out a bare name makes of the references, unless it fails. -/
def switch? (references : References) (name : String) : Option References :=
  match references.target? ("refs/heads/" ++ name) with
  | some target => some (references.land name target)
  | none =>
    match references.resolve? name with
    | some (.commit hash) => some { references with head := .detached hash }
    | some .contents => none
    | none => (references.target? ("refs/remotes/origin/" ++ name)).map (references.land name)

/-- What a command makes of the references and what it writes, unless it fails. -/
def answer? (references : References) : List String → Option (References × String)
  | ["merge-base", first, second] =>
    if first = second then (references.commit? first).map (references, ·) else none
  | ["show-ref", "--verify", "--quiet", full] =>
    (references.target? full).map fun _ => (references, "")
  | ["rev-parse", "--verify", text] =>
    -- the last nine characters ask for the commit that a tag marks
    (references.commit? (String.ofList (text.toList.take (text.toList.length - 9)))).map
      (references, ·)
  | ["checkout", name] => (references.switch? name).map (·, "")
  | ["checkout", name, "-b", branch] =>
    (references.commit? name).map fun hash => (references.land branch (.commit hash), "")
  | ["submodule", _] => some (references, "")
  | _ => none

/-- The references that some calls have left, the last one first. -/
def behind (start : References) : List Call → References
  | [] => start
  | call :: calls =>
    if call.succeeded then
      (((start.behind calls).answer? call.arguments).map Prod.fst).getD (start.behind calls)
    else start.behind calls

/-- The git that keeps references. -/
def git (start : References) : Git := fun calls files request =>
  match (start.behind calls).answer? request.arguments with
  | some (_, text) => .ok ({ output := Text.encode text }, files)
  | none => .ok ({ status := 1 }, files)

variable {start references after : References} {name branch hash : String} {workspace : Workspace}
  {workingCopy : Path} {arguments : List String}

/-- What a bare name is checked out to is as the manual says. -/
theorem switched_of_switch? (h : references.switch? name = some after) :
    references.Switched name after := by
  unfold switch? at h
  cases hbranch : references.target? ("refs/heads/" ++ name) with
  | some target =>
    rw [hbranch] at h
    cases h
    exact .onto hbranch (by simp [land]) rfl
  | none =>
    simp only [hbranch] at h
    cases hresolve : references.resolve? name with
    | some target =>
      rw [hresolve] at h
      cases target with
      | commit hash =>
        cases h
        exact .detached hbranch (commit?_eq_some_iff.mpr hresolve) rfl
      | contents => cases h
    | none =>
      rw [hresolve, Option.map_eq_some_iff] at h
      obtain ⟨target, hremote, rfl⟩ := h
      exact .following hresolve hremote (by simp [land]) rfl

/-- A branch made at the commit of a name is as the manual says. -/
theorem branched_land (hname : references.commit? name = some hash) :
    references.Branched name branch (references.land branch (.commit hash)) :=
  ⟨hash, hname, rfl, by simp [land]⟩

/-- The git that keeps references touches no file. -/
@[simp] theorem after_attempt_git (folder : Option Path) :
    (start.git.attempt workspace folder arguments).after = workspace.files := by
  rcases start.git.after_attempt workspace folder arguments with hafter | ⟨location, hafter⟩
  · exact hafter
  · rw [hafter, leave, git]
    dsimp only
    cases (start.behind workspace.calls).answer? arguments <;> rfl

/-- In a folder that is there it is started, and its reply is the answer of the references. -/
theorem outcome_attempt_git (hfolder : workspace.files.isFolder workingCopy = true)
    (hnul : ∀ text ∈ workingCopy.text :: arguments, '\x00' ∉ text.toList) :
    ∃ folder, (start.git.attempt workspace (some workingCopy) arguments).outcome =
      .finished folder (match (start.behind workspace.calls).answer? arguments with
        | some (_, text) => { output := Text.encode text }
        | none => { status := 1 }) := by
  obtain ⟨location, hlocation⟩ := startingFolder_of_isFolder hfolder hnul
  refine ⟨location, ?_⟩
  unfold Git.attempt comesTo git
  rw [hlocation]
  dsimp only
  cases (start.behind workspace.calls).answer? arguments <;> rfl

/-- It succeeds exactly where the references have an answer. -/
theorem succeeded_attempt_git (hfolder : workspace.files.isFolder workingCopy = true)
    (hnul : ∀ text ∈ workingCopy.text :: arguments, '\x00' ∉ text.toList) :
    (start.git.attempt workspace (some workingCopy) arguments).succeeded =
      ((start.behind workspace.calls).answer? arguments).isSome := by
  obtain ⟨location, houtcome⟩ :
      ∃ folder, (start.git.attempt workspace (some workingCopy) arguments).outcome =
        .finished folder _ := outcome_attempt_git hfolder hnul
  unfold Call.succeeded
  rw [houtcome]
  cases (start.behind workspace.calls).answer? arguments <;> rfl

/-- A command that succeeded has an answer, and leaves the references of it. -/
theorem answer?_of_succeeded {folder : Option Path}
    (h : (start.git.attempt workspace folder arguments).succeeded = true) :
    ∃ answer, (start.behind workspace.calls).answer? arguments = some answer ∧
      start.behind (start.git.attempt workspace folder arguments :: workspace.calls) =
        answer.1 := by
  rw [behind, if_pos h, Git.arguments_attempt]
  cases hanswer : (start.behind workspace.calls).answer? arguments with
  | some answer => exact ⟨answer, rfl, rfl⟩
  | none =>
    have hfailed : (start.git.attempt workspace folder arguments).succeeded = false := by
      unfold Git.attempt comesTo git
      dsimp only
      rw [hanswer]
      cases startingFolder workspace.files folder arguments <;> rfl
    rw [hfailed] at h
    cases h

/-- Behind a command the references are those of the answer, and unchanged where there is none. -/
theorem behind_attempt_git (hfolder : workspace.files.isFolder workingCopy = true)
    (hnul : ∀ text ∈ workingCopy.text :: arguments, '\x00' ∉ text.toList) :
    start.behind (start.git.attempt workspace (some workingCopy) arguments :: workspace.calls) =
      (((start.behind workspace.calls).answer? arguments).map Prod.fst).getD
        (start.behind workspace.calls) := by
  rw [behind, succeeded_attempt_git hfolder hnul, Git.arguments_attempt]
  cases (start.behind workspace.calls).answer? arguments <;> rfl

/-- Whether no tag marks a file or a folder. -/
def MarkCommits (references : References) : Prop :=
  ∀ full, references.target? full ≠ some .contents

/-- How references grow: none is lost, and what marked commits alone still does. -/
structure Grow (references after : References) : Prop where
  kept : ∀ full, (references.target? full).isSome = true → (after.target? full).isSome = true
  commits : references.MarkCommits → after.MarkCommits

/-- References that stay the same grow. -/
theorem Grow.of_target?_eq (h : after.target? = references.target?) : references.Grow after :=
  ⟨fun full => by simp [h], fun hcommits full => by rw [h]; exact hcommits full⟩

/-- Putting a branch in place lets references grow. -/
theorem grow_land {branch : String} {target : Target}
    (htarget : references.MarkCommits → target ≠ .contents) :
    references.Grow (references.land branch target) := by
  constructor
  · intro full hfull
    simp only [land]
    split
    · rfl
    · exact hfull
  · intro hcommits full
    simp only [land]
    split
    · simpa using htarget hcommits
    · exact hcommits full

/-- Checking out a bare name lets references grow. -/
theorem grow_of_switch? {name : String} (h : references.switch? name = some after) :
    references.Grow after := by
  have hland {full : String} {target : Target} (hfull : references.target? full = some target) :
      references.Grow (references.land name target) :=
    grow_land fun hcommits hcontents => hcommits full (hcontents ▸ hfull)
  unfold switch? at h
  split at h
  · next target hbranch =>
    cases h
    exact hland hbranch
  · split at h
    · cases h
      exact .of_target?_eq rfl
    · cases h
    · obtain ⟨target, hremote, rfl⟩ := Option.map_eq_some_iff.mp h
      exact hland hremote

/-- Every answer lets references grow. -/
theorem grow_of_answer? {answer : References × String}
    (h : references.answer? arguments = some answer) : references.Grow answer.1 := by
  unfold answer? at h
  split at h
  · split at h
    · obtain ⟨hash, -, rfl⟩ := Option.map_eq_some_iff.mp h
      exact .of_target?_eq rfl
    · cases h
  · obtain ⟨target, -, rfl⟩ := Option.map_eq_some_iff.mp h
    exact .of_target?_eq rfl
  · obtain ⟨hash, -, rfl⟩ := Option.map_eq_some_iff.mp h
    exact .of_target?_eq rfl
  · obtain ⟨switched, hswitched, rfl⟩ := Option.map_eq_some_iff.mp h
    exact grow_of_switch? hswitched
  · obtain ⟨hash, -, rfl⟩ := Option.map_eq_some_iff.mp h
    exact grow_land fun _ => by simp
  · cases h
    exact .of_target?_eq rfl
  · cases h

/-- References grow with the calls. -/
theorem grow_behind (start : References) (call : Call) (calls : List Call) :
    (start.behind calls).Grow (start.behind (call :: calls)) := by
  rw [behind]
  split
  · cases hanswer : (start.behind calls).answer? call.arguments with
    | none => exact .of_target?_eq rfl
    | some answer => exact grow_of_answer? hanswer
  · exact .of_target?_eq rfl

/-- References that mark commits alone still do so behind all calls. -/
theorem markCommits_behind (hstart : start.MarkCommits) (calls : List Call) :
    (start.behind calls).MarkCommits := by
  induction calls with
  | nil => exact hstart
  | cons call calls ih => exact (grow_behind start call calls).commits ih

/-- Among references that mark commits alone, the name of a branch leads to one. -/
theorem isSome_commit?_of_branch {name : String} (hcommits : references.MarkCommits)
    (hbranch : (references.target? ("refs/heads/" ++ name)).isSome = true) :
    (references.commit? name).isSome = true := by
  obtain ⟨target, htarget⟩ := Option.isSome_iff_exists.mp hbranch
  have hfound : (fullNames name).findSome? references.target? ≠ none := by
    rw [ne_eq, List.findSome?_eq_none_iff]
    intro hnone
    rw [hnone _ (by simp [fullNames])] at htarget
    cases htarget
  obtain ⟨found, hfound⟩ := Option.ne_none_iff_exists'.mp hfound
  obtain ⟨full, -, hfull⟩ := List.exists_of_findSome?_eq_some hfound
  rw [commit?, resolve?, hfound, Option.some_or]
  cases found with
  | commit hash => rfl
  | contents => exact absurd hfull (hcommits full)

end WorkingCopies.Git.References
