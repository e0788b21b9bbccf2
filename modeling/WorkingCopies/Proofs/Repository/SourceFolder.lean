import WorkingCopies.Proofs.Commands
import WorkingCopies.Proofs.FileSystem.Remove
import WorkingCopies.Proofs.Git.Files
import WorkingCopies.Repository.Request

/-!
# The folder that a repository lies in

A repository in a folder is copied, and where the copy goes is not compared with the folder. A file
of the source is therefore lost where it lies in what is removed or written over: when a file is
fetched onto itself, and when the source is its own working copy or lies in it. All other files of
the source stay as they are, whatever is asked and however it ends.
-/

namespace WorkingCopies

open FileSystem (Location isBelow removeTree)

/-- Whether git changes nothing below a folder. -/
def Git.Spares (git : Git) (folder : Location) : Prop :=
  ∀ calls files request location, isBelow location folder = true →
    (git.leave calls files request).find? location = files.find? location

variable {host : Host} {before : Workspace} {kept : FileSystem → Prop}

/-- Removing a working copy removes what lies at its path, and nothing else is done. -/
theorem WorkingCopy.ensures_remove {workingCopy : Path} :
    Ensures (remove workingCopy) host before fun _ _ after =>
      after.files = ((removeTree workingCopy).outcome before.files).2 := by
  have hedit : Ensures (Operation.edit (removeTree workingCopy)) host before fun _ _ after =>
      after.files = ((removeTree workingCopy).outcome before.files).2 := Ensures.edit rfl
  refine Ensures.bind_attempt hedit ?_
  intro result calls after hafter
  split
  · exact Ensures.pure hafter
  · split
    · exact Ensures.pure hafter
    · exact Ensures.throw hafter
  · exact Ensures.throw hafter

namespace Repository

variable {path : Path}

/-- What copying a source keeps, and git keeps, a download keeps. -/
theorem ensures_downloadFrom_folder {reference : String} {target : Path}
    (hgit : ∀ git, host.git = some git → ∀ calls files request, kept files →
      kept (git.leave calls files request))
    (hcopy : kept ((FileSystem.copyFolder path target).outcome before.files).2) :
    Ensures (downloadFrom reference target (.folder path)) host before fun _ _ after =>
      kept after.files := by
  refine Ensures.step rfl rfl ?_
  have hedit {between : Workspace} (hfiles : between.files = before.files) :
      Ensures (Operation.edit (FileSystem.copyFolder path target)) host between fun _ _ after =>
        kept after.files := Ensures.edit (hfiles ▸ hcopy)
  refine Ensures.bind (hedit rfl) ?_ fun _ _ _ hkept => hkept
  intro _ calls between hbetween
  exact (madeOf_checkout reference).ensures_keeps hgit hbetween

/-- What removing a working copy and copying the source keep, and git keeps, an update keeps. -/
theorem ensures_update_folder {reference : String} {workingCopy : Path} {repository : Repository}
    (hsource : repository.source = .folder path)
    (hgit : ∀ git, host.git = some git → ∀ calls files request, kept files →
      kept (git.leave calls files request))
    (hremove : kept ((removeTree workingCopy).outcome before.files).2)
    (hcopy : kept ((FileSystem.copyFolder path workingCopy).outcome
      ((removeTree workingCopy).outcome before.files).2).2) :
    Ensures (update workingCopy reference) host (repository, before) fun _ _ after =>
      kept after.2.files := by
  obtain ⟨source, commit, fetched⟩ := repository
  obtain rfl : source = .folder path := hsource
  have hremoved : Ensures (Task.ofOperation (WorkingCopy.remove workingCopy)) host
      (({ source := .folder path, commit, fetched } : Repository), before) fun _ _ after =>
        after.2.files = ((removeTree workingCopy).outcome before.files).2 :=
    Ensures.ofOperation WorkingCopy.ensures_remove
  have hparts : Ensures (Task.ofOperation (WorkingCopy.remove workingCopy) >>= fun _ =>
      Task.ofOperation (downloadFrom reference workingCopy (.folder path))) host
      (({ source := .folder path, commit, fetched } : Repository), before) fun _ _ after =>
        kept after.2.files := by
    refine Ensures.bind hremoved ?_ fun _ _ after hafter => hafter ▸ hremove
    intro _ calls between hbetween
    exact Ensures.ofOperation (ensures_downloadFrom_folder hgit (hbetween ▸ hcopy))
  exact hparts

/-- What is done for a request is done by a task. -/
theorem files_serve {task : Task Unit} {request : Request} {repository : Repository}
    {post : FileSystem → Prop} (hserve : request.serve = (task >>= fun _ => pure .done))
    (h : Ensures task host (repository, before) fun _ _ after => post after.2.files) :
    post (request.serve.carryOut host repository before).2.2.files := by
  have hdone : Ensures request.serve host (repository, before) fun _ _ after =>
      post after.2.files := by
    rw [hserve]
    exact Ensures.bind h (fun _ _ _ hpost => Ensures.pure hpost) fun _ _ _ hpost => hpost
  obtain ⟨_, -, hpost⟩ := hdone
  exact hpost

section Requests

variable {repository : Repository}

/-- Fetching a file copies it, and nothing else is done. -/
theorem files_serve_fetchFile {workingCopy : Path} {file : String} {target : Path}
    (hsource : repository.source = .folder path) :
    (Request.serve (.fetchFile workingCopy file target) |>.carryOut host repository
        before).2.2.files =
      ((FileSystem.copyFile (path.join ⟨file⟩) (target.join ⟨file⟩)).outcome before.files).2 := by
  obtain ⟨source, commit, fetched⟩ := repository
  obtain rfl : source = .folder path := hsource
  have hcopy : Ensures (copyFileFrom path file target) host before fun _ _ after =>
      after.files = ((FileSystem.copyFile (path.join ⟨file⟩) (target.join ⟨file⟩)).outcome
        before.files).2 := Ensures.step rfl rfl (Ensures.edit rfl)
  have hfetch : Ensures (fetchFile workingCopy file target) host
      (({ source := .folder path, commit, fetched } : Repository), before) fun _ _ after =>
        after.2.files = ((FileSystem.copyFile (path.join ⟨file⟩) (target.join ⟨file⟩)).outcome
          before.files).2 := by
    refine Ensures.step rfl rfl ?_
    exact Ensures.ofOperation hcopy
  exact @files_serve host before _ (.fetchFile workingCopy file target) _
    (fun files => files = _) rfl hfetch

/-- What copying the source keeps, and git keeps, a request for a download keeps. -/
theorem files_serve_download {reference : String} {target : Path}
    (hsource : repository.source = .folder path)
    (hgit : ∀ git, host.git = some git → ∀ calls files request, kept files →
      kept (git.leave calls files request))
    (hcopy : kept ((FileSystem.copyFolder path target).outcome before.files).2) :
    kept (Request.serve (.download reference target) |>.carryOut host repository
      before).2.2.files := by
  obtain ⟨source, commit, fetched⟩ := repository
  obtain rfl : source = .folder path := hsource
  have hdownload : Ensures (download reference target) host
      (({ source := .folder path, commit, fetched } : Repository), before) fun _ _ after =>
        kept after.2.files := ensures_downloadFrom_folder hgit hcopy
  exact @files_serve host before _ (.download reference target) _ kept rfl hdownload

/-- What removing a working copy and copying the source keep, and git keeps, a request for an update
keeps. -/
theorem files_serve_update {reference : String} {workingCopy : Path}
    (hsource : repository.source = .folder path)
    (hgit : ∀ git, host.git = some git → ∀ calls files request, kept files →
      kept (git.leave calls files request))
    (hremove : kept ((removeTree workingCopy).outcome before.files).2)
    (hcopy : kept ((FileSystem.copyFolder path workingCopy).outcome
      ((removeTree workingCopy).outcome before.files).2).2) :
    kept (Request.serve (.update workingCopy reference) |>.carryOut host repository
      before).2.2.files :=
  @files_serve host before _ (.update workingCopy reference) _ kept rfl
    (ensures_update_folder hsource hgit hremove hcopy)

end Requests

/-- A file of the source stays as it is when a file is fetched, exactly if no other bytes are copied
over it; when the repository is downloaded, if it is out of reach of the target; and when a working
copy is updated, if it does not lie in the working copy and is out of reach of the one that is made
in its place. Where the source itself lies in the working copy, an update loses all its files. -/
theorem sourceFile_kept {commit : String} {fetched : Latch} {folder location : Location}
    {contents : Bytes} (hformed : before.files.WellFormed)
    (hgit : ∀ git, host.git = some git → git.Spares folder)
    (hsource : before.files.folderAt path = .ok folder) (hbelow : isBelow location folder = true)
    (hfile : before.files.find? location = some (.file contents)) :
    let after (request : Request) : FileSystem :=
      (request.serve.carryOut host { source := .folder path, commit, fetched } before).2.2.files
    let kept (request : Request) : Prop := (after request).find? location = some (.file contents)
    (∀ workingCopy file target, kept (.fetchFile workingCopy file target) ↔
      ¬ before.files.CopiesOver (path.join ⟨file⟩) (target.join ⟨file⟩) location contents) ∧
    (∀ reference target, before.files.OutOfReach target location →
      kept (.download reference target)) ∧
    ∀ workingCopy reference,
      (¬ before.files.Removes workingCopy location →
        ((removeTree workingCopy).outcome before.files).2.OutOfReach workingCopy location →
          kept (.update workingCopy reference)) ∧
      ∀ above, before.files.resolve .lookAtLink workingCopy = .ok (.present above .folder) →
        above <+: folder → ∀ bytes, (after (.update workingCopy reference)).find? location ≠
          some (.file bytes) := by
  intro after kept
  have hkeeps (property : Option FileSystem.Node → Prop) : ∀ git, host.git = some git →
      ∀ calls files request, property (files.find? location) →
        property ((git.leave calls files request).find? location) := by
    intro git hinstalled calls files request hnode
    rwa [hgit git hinstalled calls files request location hbelow]
  refine ⟨fun workingCopy file target => ?_, fun reference target hreach => ?_,
    fun workingCopy reference => ?_⟩
  · show (after _).find? location = _ ↔ _
    rw [show after (.fetchFile workingCopy file target) = _ from files_serve_fetchFile rfl]
    exact FileSystem.find?_copyFile_iff hfile
  · exact files_serve_download rfl (hkeeps (· = some (.file contents)))
      (hreach.find?_copyFolder hformed hfile)
  · have hcleared : before.files.Cleared workingCopy
        ((removeTree workingCopy).outcome before.files).2 :=
      FileSystem.ensures_removeTree workingCopy
    constructor
    · intro hnot hreach
      have hkept := hcleared.kept location contents hnot hfile
      exact files_serve_update rfl (hkeeps (· = some (.file contents))) hkept
        (hreach.find?_copyFolder (hcleared.shrinks.formed hformed) hkept)
    · intro above habove hinitial bytes
      -- nothing is left below the folder that was removed, so the source has no file any more
      have hgone := hcleared.removed location
        ⟨above, habove, FileSystem.isBelow_of_prefix hinitial hbelow⟩
      refine files_serve_update rfl (hkeeps (· ≠ some (.file bytes))) (by simp [hgone]) ?_
      exact hcleared.find?_copyFolder_ne_file hformed hsource habove hinitial hbelow

/-- A source whose file is kept when it is copied to a place beside it, and by an update there, and
lost when it is fetched onto itself and when the source is updated as its own working copy. -/
theorem sourceFile_kept_beside_source :
    let files : FileSystem := { entries := [(["s"], .folder), (["s", "x"], .file [97])] }
    let git : Git := fun _ files _ => .ok ({}, files)
    let host : Host := ⟨some git, ⟨[]⟩⟩
    let after (request : Request) : FileSystem :=
      (request.serve.carryOut host { source := .folder ⟨"/s"⟩ } { files }).2.2.files
    let kept (request : Request) : Prop := (after request).find? ["s", "x"] = some (.file [97])
    files.WellFormed ∧ git.Spares ["s"] ∧ files.folderAt ⟨"/s"⟩ = .ok ["s"] ∧
      files.find? ["s", "x"] = some (.file [97]) ∧
      kept (.download "HEAD" ⟨"/t"⟩) ∧ kept (.update ⟨"/t"⟩ "HEAD") ∧
      ¬ kept (.fetchFile ⟨"/w"⟩ "x" ⟨"/s"⟩) ∧ ¬ kept (.update ⟨"/s"⟩ "HEAD") := by
  intro files git host after kept
  have hformed : files.WellFormed := by
    refine ⟨?_, by decide⟩
    intro entry hentry name hname
    have hone : name = "s" ∨ name = "x" := by
      simp only [files, List.mem_cons, List.not_mem_nil, or_false] at hentry
      rcases hentry with rfl | rfl <;> simp_all
    rcases hone with rfl | rfl <;> exact ⟨by decide, by decide, by decide, by decide⟩
  have hgit : git.Spares ["s"] := fun _ _ _ _ _ => rfl
  have hsource : files.folderAt ⟨"/s"⟩ = .ok ["s"] := rfl
  have hfile : files.find? ["s", "x"] = some (.file [97]) := rfl
  obtain ⟨hfetch, hdownload, hupdate⟩ := @sourceFile_kept host { files } ⟨"/s"⟩ "" {} ["s"]
    ["s", "x"] [97] hformed (by rintro _ ⟨⟩; exact hgit) hsource rfl hfile
  have hmade : (FileSystem.createFolders (Path.join ⟨"/t"⟩ (FileSystem.relativePath []))).outcome
      files = (.ok (), { entries := (["t"], .folder) :: files.entries }) := rfl
  have hreach : files.OutOfReach ⟨"/t"⟩ ["s", "x"] := by
    intro made hother
    rw [hmade] at hother
    cases hother
    refine ⟨["t"], FileSystem.leadsTo_of_folderAt (rfl), ?_, by decide⟩
    exact FileSystem.hasNoLinks_of_entries (by simp [files])
  have habsent : files.resolve .lookAtLink ⟨"/t"⟩ = .ok (.absent [] "t") := rfl
  have hnot : ¬ files.Removes ⟨"/t"⟩ ["s", "x"] := by
    rintro ⟨folder, hfolder, -⟩
    rw [habsent] at hfolder
    cases hfolder
  have hleft : ((removeTree ⟨"/t"⟩).outcome files).2 = files := rfl
  have hover : files.CopiesOver (Path.join ⟨"/s"⟩ ⟨"x"⟩) (Path.join ⟨"/s"⟩ ⟨"x"⟩) ["s", "x"] [97] :=
    ⟨files, rfl, ["s", "x"], [97], rfl, rfl, by decide⟩
  have hremoved : files.resolve .lookAtLink ⟨"/s"⟩ = .ok (.present ["s"] .folder) := rfl
  refine ⟨hformed, hgit, hsource, hfile, hdownload "HEAD" ⟨"/t"⟩ hreach, ?_, ?_, ?_⟩
  · exact (hupdate ⟨"/t"⟩ "HEAD").1 hnot (hleft.symm ▸ hreach)
  · exact fun hkept => (hfetch ⟨"/w"⟩ "x" ⟨"/s"⟩).mp hkept hover
  · exact (hupdate ⟨"/s"⟩ "HEAD").2 ["s"] hremoved (List.prefix_refl _) [97]

/-- Fetching a file from a source into the source itself succeeds and leaves it empty, and updating
the source as its own working copy fails and leaves nothing of it, though git touches no file. -/
theorem sourceFile_lost_in_source :
    let files : FileSystem := { entries := [(["s"], .folder), (["s", "x"], .file [97])] }
    let git : Git := fun _ files _ => .ok ({}, files)
    let host : Host := ⟨some git, ⟨[]⟩⟩
    let serve (request : Request) : Except Failure Answer × Repository × Workspace :=
      request.serve.carryOut host { source := .folder ⟨"/s"⟩ } { files }
    git.Spares ["s"] ∧ files.folderAt ⟨"/s"⟩ = .ok ["s"] ∧
      files.find? ["s", "x"] = some (.file [97]) ∧
      (serve (.fetchFile ⟨"/w"⟩ "x" ⟨"/s"⟩)).1.toOption = some .done ∧
      (serve (.fetchFile ⟨"/w"⟩ "x" ⟨"/s"⟩)).2.2.files.find? ["s", "x"] = some (.file []) ∧
      (serve (.update ⟨"/s"⟩ "HEAD")).1.toOption = none ∧
      (serve (.update ⟨"/s"⟩ "HEAD")).2.2.files.find? ["s", "x"] = none := by
  intro files git host serve
  exact ⟨fun _ _ _ _ _ => rfl, rfl, rfl, by decide +kernel, by decide +kernel, by decide +kernel,
    by decide +kernel⟩

end Repository

end WorkingCopies
