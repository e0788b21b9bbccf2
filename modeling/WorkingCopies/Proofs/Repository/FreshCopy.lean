import Mathlib.Data.List.Forall2
import WorkingCopies.Proofs.FileSystem.Alike
import WorkingCopies.Proofs.FileSystem.Folders
import WorkingCopies.Proofs.Lockstep
import WorkingCopies.Proofs.Repository.FailedUpdate

/-!
# Updates forget the working copy

An update from a folder removes the working copy before it makes it anew. So two runs that differ in
nothing but what lies in the working copy, if anything does, are the same run from the removal on:
where git goes by nothing but its commands and the files it finds, they have the same result, call git
in the same way and leave the same files.
-/

namespace WorkingCopies

open FileSystem (Alike Location SameFiles cleared copyFolder removalFault? removeFolder removeTree)
open Git (Call Command)

namespace FileSystem

variable {files others : FileSystem} {workingCopy : Path} {place : Location}

/-- Whether a working copy has its place where a path leads: a folder is there, or nothing, in a folder
that is there. -/
def HasPlaceAt (files : FileSystem) (workingCopy : Path) (place : Location) : Prop :=
  files.resolve .lookAtLink workingCopy = .ok (.present place .folder) ∨
    ∃ folder name, place = folder ++ [name] ∧
      files.resolveParent workingCopy = .ok (folder, some name) ∧ files.find? place = none

/-- Whether two file systems hold the same everywhere but in a place and below it. -/
structure SameOutside (place : Location) (files others : FileSystem) : Prop where
  start : files.start = others.start
  find? : ∀ location, ¬ place <+: location → files.find? location = others.find? location

/-- It does not matter which one of them is named first. -/
theorem SameOutside.symm (h : SameOutside place files others) : SameOutside place others files :=
  ⟨h.start.symm, fun location houtside => (h.find? location houtside).symm⟩

/-- Taking a place and what lies below it out of a file system leaves the same outside of it. -/
theorem sameOutside_filter (files : FileSystem) (place : Location) :
    SameOutside place files
      { files with entries := files.entries.filter fun entry => !place.isPrefixOf entry.1 } := by
  refine ⟨rfl, fun location houtside => ?_⟩
  by_cases hroot : location = []
  · rw [hroot]
    rfl
  · rw [FileSystem.find?, FileSystem.find?, if_neg hroot, if_neg hroot,
      lookup_filter (fun other => !place.isPrefixOf other), if_pos]
    rwa [Bool.not_eq_true', Bool.eq_false_iff, ne_eq, List.isPrefixOf_iff_prefix]

/-- Whether what is left of files is all that lies neither in a place nor below it. -/
structure Without (place : Location) (files left : FileSystem) : Prop where
  start : left.start = files.start
  nodup : (left.entries.map (·.1)).Nodup
  find? : ∀ location,
    left.find? location = if place <+: location then none else files.find? location

/-- Of file systems that hold the same outside of a place, the same is left without it. -/
theorem Without.alike {left leftOther : FileSystem} (h : Without place files left)
    (hother : Without place others leftOther) (hsame : SameOutside place files others) :
    Alike left leftOther := by
  refine ⟨⟨?_, fun location => ?_⟩, h.nodup, hother.nodup⟩
  · rw [h.start, hother.start, hsame.start]
  · rw [h.find?, hother.find?]
    split
    · rfl
    · next houtside => exact hsame.find? location houtside

/-- A tree in which nothing lies in a place is what is left without it. -/
theorem IsTree.without_of_absent (htree : files.IsTree) (habsent : files.find? place = none) :
    Without place files files := by
  refine ⟨rfl, htree.nodup, fun location => ?_⟩
  split
  · next hinside =>
    obtain ⟨more, rfl⟩ := hinside
    by_cases hmore : more = []
    · rwa [hmore, List.append_nil]
    · cases hnode : files.find? (place ++ more) with
      | none => rfl
      | some node =>
        rw [htree.find?_of_append hmore hnode] at habsent
        cases habsent
  · rfl

/-- Clearing what lies below a place, and then the place, leaves what there is without it. -/
theorem IsTree.without_erase (htree : files.IsTree) (hroot : place ≠ []) :
    Without place files ((files.eraseBelow place).erase place) := by
  refine ⟨rfl, (Shrinks.formed_filter (Shrinks.formed_filter htree.toWellFormed)).nodup,
    fun location => ?_⟩
  rw [find?_erase _ _ _ hroot, find?_eraseBelow]
  by_cases hinside : place <+: location
  · rw [if_pos hinside]
    split
    · rfl
    · next hne => rw [if_pos (isBelow_iff.mpr ⟨hinside, hne⟩)]
  · have hne : location ≠ place := by
      rintro rfl
      exact hinside (List.prefix_refl _)
    rw [if_neg hinside, if_neg hne, if_neg fun hbelow => hinside (isBelow_iff.mp hbelow).1]

/-- Nothing is listed in a folder below which everything has been cleared. -/
theorem contents_eraseBelow (files : FileSystem) (place : Location) :
    (files.eraseBelow place).contents place = [] := by
  refine List.eq_nil_iff_forall_not_mem.mpr ?_
  rintro ⟨name, node⟩ hentry
  have hkept := (List.mem_filter.mp (mem_contents_iff.mp hentry)).2
  simp [isBelow_append (List.prefix_refl place) name] at hkept

section Removal

variable {folder : Location} {name : String}

/-- Removing a working copy that is missing removes nothing, and does not fail. -/
theorem cleared_of_absent (hparent : files.resolveParent workingCopy = .ok (folder, some name))
    (habsent : files.find? (folder ++ [name]) = none) :
    cleared files workingCopy = files ∧ removalFault? files workingCopy = none := by
  have hmissing : (removeTree workingCopy).outcome files = (.error .noSuchEntry, files) := by
    rw [outcome_removeTree, resolve_of_resolveParent hparent habsent]
  exact of_outcome_removeTree hmissing

/-- A working copy is removed with everything in it if the way to it does not lead through what lies
below it. -/
theorem cleared_of_folder (htree : files.IsTree)
    (hfolder : files.resolve .lookAtLink workingCopy = .ok (.present (folder ++ [name]) .folder))
    (hparent : (files.eraseBelow (folder ++ [name])).resolveParent workingCopy =
      .ok (folder, some name)) :
    cleared files workingCopy = (files.eraseBelow (folder ++ [name])).erase (folder ++ [name]) ∧
      removalFault? files workingCopy = none := by
  have hnotBelow : isBelow (folder ++ [name]) (folder ++ [name]) ≠ true := fun hbelow =>
    (isBelow_iff.mp hbelow).2 rfl
  have hfind : (files.eraseBelow (folder ++ [name])).find? (folder ++ [name]) = some .folder := by
    rw [find?_eraseBelow, if_neg hnotBelow]
    exact htree.find?_of_resolve hfolder
  have hremoved : (removeFolder workingCopy).Ensures (files.eraseBelow (folder ++ [name]))
      fun result after => result = .ok () ∧
        after = (files.eraseBelow (folder ++ [name])).erase (folder ++ [name]) := by
    refine Edit.Ensures.bind_ask (fun parent hanswer => ?_) fun fault hrefused => ?_
    · obtain ⟨⟩ := hparent.symm.trans hanswer
      refine Edit.Ensures.bind_get ?_
      rw [hfind]
      refine Edit.Ensures.bind_get ?_
      rw [contents_eraseBelow]
      exact ⟨rfl, rfl⟩
    · cases hparent.symm.trans hrefused
  have houtcome : (removeTree workingCopy).outcome files =
      (.ok (), (files.eraseBelow (folder ++ [name])).erase (folder ++ [name])) := by
    rw [outcome_removeTree, hfolder]
    exact Prod.ext hremoved.1 hremoved.2
  exact of_outcome_removeTree houtcome

/-- Where a working copy is in one of two file systems and missing in the other one, removing it leaves
the same. -/
theorem alike_cleared_of_absent (htree : files.IsTree) (hothers : others.IsTree)
    (hsame : SameOutside (folder ++ [name]) files others)
    (hfolder : files.resolve .lookAtLink workingCopy = .ok (.present (folder ++ [name]) .folder))
    (hparent : others.resolveParent workingCopy = .ok (folder, some name))
    (habsent : others.find? (folder ++ [name]) = none) :
    removalFault? files workingCopy = removalFault? others workingCopy ∧
      Alike (cleared files workingCopy) (cleared others workingCopy) := by
  have hwithout := hothers.without_of_absent habsent
  -- the way to the working copy does not lead through it, as there is one where it is missing
  have hkeeps : others.KeepsWays (files.eraseBelow (folder ++ [name])) := by
    intro location node hnode _
    have houtside : ¬ folder ++ [name] <+: location := by
      intro hinside
      have hgone := hwithout.find? location
      rw [if_pos hinside, hnode] at hgone
      cases hgone
    rw [find?_eraseBelow, if_neg fun hbelow => houtside (isBelow_iff.mp hbelow).1,
      hsame.find? location houtside, hnode]
  obtain ⟨hleft, hfault⟩ := cleared_of_folder htree hfolder
    (hkeeps.resolveParent_eq hsame.start hparent)
  obtain ⟨hleftOther, hfaultOther⟩ := cleared_of_absent hparent habsent
  rw [hleft, hfault, hleftOther, hfaultOther]
  exact ⟨rfl, (htree.without_erase (by simp)).alike hwithout hsame⟩

end Removal

/-- With everything below a folder cleared, file systems that hold the same outside of the folder are
alike. -/
theorem alike_eraseBelow (htree : files.IsTree) (hothers : others.IsTree)
    (hsame : SameOutside place files others) (hfolder : files.find? place = some .folder)
    (hother : others.find? place = some .folder) :
    Alike (files.eraseBelow place) (others.eraseBelow place) := by
  refine ⟨⟨hsame.start, fun location => ?_⟩, (Shrinks.formed_filter htree.toWellFormed).nodup,
    (Shrinks.formed_filter hothers.toWellFormed).nodup⟩
  rw [find?_eraseBelow, find?_eraseBelow]
  split
  · rfl
  · next hbelow =>
    by_cases hinside : place <+: location
    · obtain rfl : location = place := by
        by_contra hne
        exact hbelow (isBelow_iff.mpr ⟨hinside, hne⟩)
      rw [hfolder, hother]
    · exact hsame.find? location hinside

/-- Removing a working copy leaves the same and ends in the same way, whatever lies in its place. -/
theorem alike_cleared (htree : files.IsTree) (hothers : others.IsTree)
    (hsame : SameOutside place files others) (hplace : files.HasPlaceAt workingCopy place)
    (hother : others.HasPlaceAt workingCopy place) :
    removalFault? files workingCopy = removalFault? others workingCopy ∧
      Alike (cleared files workingCopy) (cleared others workingCopy) := by
  rcases hplace with hfolder | ⟨folder, name, rfl, hparent, habsent⟩
  · rcases hother with hotherFolder | ⟨folder, name, rfl, hparent, habsent⟩
    · have halike := alike_eraseBelow htree hothers hsame
        (htree.find?_of_resolve hfolder) (hothers.find?_of_resolve hotherFolder)
      obtain ⟨hresult, hafter⟩ := goesByFiles_removeFolder workingCopy _ _ halike
      have hremoved := outcome_removeTree files workingCopy
      have hremovedOther := outcome_removeTree others workingCopy
      rw [hfolder] at hremoved
      rw [hotherFolder] at hremovedOther
      rw [cleared, cleared, removalFault?, removalFault?, hremoved, hremovedOther]
      dsimp only
      rw [hresult]
      exact ⟨rfl, hafter⟩
    · exact alike_cleared_of_absent htree hothers hsame hfolder hparent habsent
  · rcases hother with hotherFolder | ⟨_, _, hnames, hotherParent, hotherAbsent⟩
    · obtain ⟨hfault, hafter⟩ :=
        alike_cleared_of_absent hothers htree hsame.symm hotherFolder hparent habsent
      exact ⟨hfault.symm, hafter.symm⟩
    · obtain ⟨rfl, ⟨⟩⟩ := List.append_inj' hnames rfl
      obtain ⟨hleft, hfault⟩ := cleared_of_absent hparent habsent
      obtain ⟨hleftOther, hfaultOther⟩ := cleared_of_absent hotherParent hotherAbsent
      rw [hleft, hfault, hleftOther, hfaultOther]
      exact ⟨rfl, (htree.without_of_absent habsent).alike
        (hothers.without_of_absent hotherAbsent) hsame⟩

end FileSystem

namespace Git

/-- Calls that are the same for all that can be told by the files they found and left. -/
structure Call.Matches (first second : Call) : Prop where
  folder : first.folder = second.folder
  arguments : first.arguments = second.arguments
  outcome : first.outcome = second.outcome
  before : SameFiles first.before second.before
  after : SameFiles first.after second.after

/-- A call matches itself. -/
theorem Call.Matches.refl (call : Call) : call.Matches call :=
  ⟨rfl, rfl, rfl, .refl _, .refl _⟩

/-- Whether git goes by nothing but the commands and what the files hold. -/
def GoesByFiles (git : Git) : Prop :=
  ∀ calls more, List.Forall₂ Call.Matches calls more →
    ∀ files others, SameFiles files others → ∀ request,
      (git calls files request).map Prod.fst = (git more others request).map Prod.fst ∧
        SameFiles (git.leave calls files request) (git.leave more others request)

/-- A git that goes by the files is refused for one reason wherever these hold the same, or replies
the same and leaves files that hold the same. -/
theorem GoesByFiles.cases {git : Git} (hgit : git.GoesByFiles) {calls more : List Call}
    (hcalls : List.Forall₂ Call.Matches calls more) {files others : FileSystem}
    (hfiles : SameFiles files others) (request : Request) :
    (∃ reason, git calls files request = .error reason ∧
        git more others request = .error reason) ∨
      ∃ reply after last, git calls files request = .ok (reply, after) ∧
        git more others request = .ok (reply, last) ∧ SameFiles after last := by
  obtain ⟨hreply, hafter⟩ := hgit calls more hcalls files others hfiles request
  unfold leave at hafter
  cases hfirst : git calls files request with
  | error reason =>
    cases hsecond : git more others request with
    | error other =>
      rw [hfirst, hsecond] at hreply
      cases hreply
      exact .inl ⟨reason, rfl, rfl⟩
    | ok other =>
      rw [hfirst, hsecond] at hreply
      cases hreply
  | ok replied =>
    obtain ⟨reply, after⟩ := replied
    cases hsecond : git more others request with
    | error other =>
      rw [hfirst, hsecond] at hreply
      cases hreply
    | ok other =>
      rw [hfirst, hsecond] at hreply hafter
      obtain rfl : reply = other.1 := Except.ok.inj hreply
      exact .inr ⟨_, after, other.2, rfl, rfl, hafter⟩

end Git

/-- Workspaces whose files are related, and which are the same for all that can be told by what their
files held. -/
structure Workspace.Matches (related : FileSystem → FileSystem → Prop) (first second : Workspace) :
    Prop where
  files : related first.files second.files
  calls : List.Forall₂ Call.Matches first.calls second.calls
  log : first.log = second.log

namespace Workspace.Matches

variable {α : Type} {host : Host} {related : FileSystem → FileSystem → Prop}
  {first second : Workspace}

/-- Attempts to run git match in workspaces that hold the same. -/
theorem attempt {git : Git} (hgit : git.GoesByFiles) (h : Matches SameFiles first second)
    (folder : Option Path) (arguments : List String) :
    (git.attempt first folder arguments).Matches (git.attempt second folder arguments) := by
  have hstart : Git.startingFolder first.files folder arguments =
      Git.startingFolder second.files folder arguments := by
    simp only [Git.startingFolder, h.files.folderAt_eq]
  unfold Git.attempt Git.comesTo
  rw [hstart]
  cases Git.startingFolder second.files folder arguments with
  | error fault => exact ⟨rfl, rfl, rfl, h.files, h.files⟩
  | ok location =>
    dsimp only
    rcases hgit.cases h.calls h.files ⟨location, arguments⟩ with
      ⟨reason, hfirst, hsecond⟩ | ⟨reply, after, last, hfirst, hsecond, hafter⟩
    · rw [hfirst, hsecond]
      exact ⟨rfl, rfl, rfl, h.files, h.files⟩
    · rw [hfirst, hsecond]
      exact ⟨rfl, rfl, rfl, h.files, hafter⟩

/-- Reports keep step. -/
theorem inStep_report (level : Log.Level) (topic : Log.Topic) (text : String) :
    InStep (Matches related) Eq host host (Operation.report level topic text)
      (Operation.report level topic text) :=
  fun _ _ hmatches => ⟨.ok rfl, hmatches.files, hmatches.calls, congrArg (List.cons _) hmatches.log⟩

/-- Commands keep step where git goes by the files. -/
theorem inStep_run (hgit : ∀ git, host.git = some git → git.GoesByFiles) (command : Command) :
    InStep (Matches SameFiles) Eq host host command.run command.run := by
  refine .run fun git hinstalled first second hmatches => ?_
  have hcall : (command.callBy git first).Matches (command.callBy git second) :=
    hmatches.attempt (hgit git hinstalled) _ _
  exact ⟨hcall.outcome, hcall.after, .cons hcall hmatches.calls,
    congrArg (List.cons _) hmatches.log⟩

/-- What is made of commands keeps step. -/
theorem inStep_of_madeOf (hgit : ∀ git, host.git = some git → git.GoesByFiles)
    {allowed : Command → Prop} {operation : Operation α} (h : MadeOf allowed operation) :
    InStep (Matches SameFiles) Eq host host operation operation :=
  h.inStep rfl inStep_report fun command _ => inStep_run hgit command

/-- Edits that go by what the files hold keep step where these are alike. -/
theorem inStep_edit {change : FileSystem.Edit α} (hchange : change.GoesByFiles) :
    InStep (Matches Alike) Eq host host (Operation.edit change) (Operation.edit change) := by
  intro first second hmatches
  obtain ⟨hresult, hafter⟩ := hchange _ _ hmatches.files
  rw [outcome_edit, outcome_edit, resultsAgree_eq_iff]
  exact ⟨congrArg (Except.mapError Failure.fileSystem) hresult, hafter, hmatches.calls,
    hmatches.log⟩

end Workspace.Matches

namespace Repository

open Workspace (Matches)

variable {host : Host} {first second before : Workspace} {others : FileSystem}
  {repository : Repository} {workingCopy path : Path} {reference : String} {place : Location}

/-- Downloads from a folder come to the same where the files are alike. -/
theorem matches_downloadFrom (hgit : ∀ git, host.git = some git → git.GoesByFiles)
    (hmatches : Matches Alike first second) :
    let download := downloadFrom reference workingCopy (.folder path)
    ResultsAgree Eq (Action.outcome download host first).1 (Action.outcome download host second).1 ∧
      Matches SameFiles (Action.outcome download host first).2
        (Action.outcome download host second).2 := by
  have hcopy : InStep (Matches Alike) Eq host host
      (Operation.edit (copyFolder path workingCopy)) (Operation.edit (copyFolder path workingCopy)) :=
    Workspace.Matches.inStep_edit (FileSystem.goesByFiles_copyFolder path workingCopy)
  have hcheckout : InStep (Matches SameFiles) Eq host host (checkout workingCopy reference)
      (checkout workingCopy reference) :=
    Workspace.Matches.inStep_of_madeOf hgit (madeOf_checkout reference)
  have hsame (after last : Workspace) (h : Matches Alike after last) : Matches SameFiles after last :=
    ⟨h.files.toSameFiles, h.calls, h.log⟩
  -- the copy lists folders, which tells places that are listed twice, and git may leave such places
  refine InStep.follow (Workspace.Matches.inStep_report _ _ _ first second hmatches) hsame ?_
  intro _ _ _ announced other hannounced
  refine InStep.follow (hcopy announced other hannounced) hsame ?_
  intro _ _ _ copied other hcopied
  exact hcheckout copied other (hsame copied other hcopied)

/-- An update from a folder forgets the working copy. Where git goes by nothing but the commands and
what the files hold, two runs that differ in nothing but what lies in the place of the working copy,
where a folder may hold anything or nothing need be, have the same result, call git in the same way
and leave the same in every place. -/
theorem update_forgets_working_copy (hgit : ∀ git, host.git = some git → git.GoesByFiles)
    (hsource : repository.source = .folder path) (htree : before.files.IsTree)
    (hothers : others.IsTree) (hsame : before.files.SameOutside place others)
    (hplace : before.files.HasPlaceAt workingCopy place)
    (hother : others.HasPlaceAt workingCopy place) :
    let updated := (update workingCopy reference).carryOut host repository before
    let other := (update workingCopy reference).carryOut host repository { before with files := others }
    updated.1 = other.1 ∧ updated.2.1 = other.2.1 ∧ Matches SameFiles updated.2.2 other.2.2 := by
  intro updated other
  have hupdated : updated = _ := carryOut_update_folder hsource
  have hotherUpdated : other = _ := carryOut_update_folder hsource
  obtain ⟨hfault, hleft⟩ := FileSystem.alike_cleared htree hothers hsame hplace hother
  have hmatches : Matches Alike { before with files := cleared before.files workingCopy }
      { before with files := cleared others workingCopy } :=
    ⟨hleft, List.forall₂_same.mpr fun call _ => .refl call, rfl⟩
  obtain ⟨hresults, hafter⟩ := @matches_downloadFrom host _ _ workingCopy path reference hgit hmatches
  rw [hupdated, hotherUpdated]
  dsimp only
  rw [hfault]
  cases removalFault? others workingCopy with
  | none =>
    dsimp only
    exact ⟨resultsAgree_eq_iff.mp hresults, rfl, hafter⟩
  | some fault =>
    dsimp only
    exact ⟨rfl, rfl, hleft.toSameFiles, hmatches.calls, hmatches.log⟩

/-- An update of a working copy with a stray file, at which git would fail, comes to the same as one
where nothing lay in its place. -/
theorem update_forgets_stray_file :
    let files : FileSystem := { entries :=
      [(["s"], .folder), (["s", "a"], .file [97]), (["w"], .folder), (["w", "b"], .file [98])] }
    let others : FileSystem := { entries := [(["s"], .folder), (["s", "a"], .file [97])] }
    let git : Git := fun _ files _ =>
      .ok ({ status := if files.find? ["w", "b"] = none then 0 else 1 }, files)
    let host : Host := ⟨some git, ⟨[]⟩⟩
    let repository : Repository := { source := .folder ⟨"/s"⟩ }
    let updated := (update ⟨"/w"⟩ "HEAD").carryOut host repository { files }
    let other := (update ⟨"/w"⟩ "HEAD").carryOut host repository { files := others }
    git.GoesByFiles ∧ updated.1 = .ok () ∧ other.1 = .ok () ∧
      updated.2.2.files.find? ["w", "a"] = some (.file [97]) ∧
      updated.2.2.files.find? ["w", "b"] = none ∧ Matches SameFiles updated.2.2 other.2.2 := by
  intro files others git host repository updated other
  have hgit : git.GoesByFiles := by
    intro calls more _ files others hsame request
    refine ⟨?_, hsame⟩
    simp only [git, hsame.find?, Except.map]
  have hinstalled : ∀ installed, host.git = some installed → installed.GoesByFiles := by
    rintro _ ⟨⟩
    exact hgit
  have hsame : files.SameOutside ["w"] others := FileSystem.sameOutside_filter files ["w"]
  have hplace : files.HasPlaceAt ⟨"/w"⟩ ["w"] := .inl (by decide +kernel)
  have hother : others.HasPlaceAt ⟨"/w"⟩ ["w"] := .inr ⟨[], "w", rfl, by decide +kernel, rfl⟩
  obtain ⟨hresult, -, hmatches⟩ := @update_forgets_working_copy host { files } others repository
    ⟨"/w"⟩ ⟨"/s"⟩ "HEAD" ["w"] hinstalled rfl (by decide +kernel) (by decide +kernel) hsame hplace hother
  have hupdated : updated.1 = .ok () := by decide +kernel
  exact ⟨hgit, hupdated, hresult.symm.trans hupdated, by decide +kernel, by decide +kernel, hmatches⟩

end Repository

end WorkingCopies
