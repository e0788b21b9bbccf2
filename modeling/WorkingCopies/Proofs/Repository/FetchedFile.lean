import WorkingCopies.Proofs.FileSystem.Footprint
import WorkingCopies.Proofs.Git.Files
import WorkingCopies.Proofs.Repository.Commands
import WorkingCopies.Proofs.Repository.Fetch

/-!
# Where a fetched file is written

A file of a repository is written where the path of the folder, joined with the name of the file,
leads by its text. The name is not checked: one that never leads up from where it starts is written
inside the folder, and another one, or an absolute one, goes where it says.
-/

namespace WorkingCopies

open FileSystem (ChangesInside Footprint HoldsFile createFolders isBelow staysBelow writeFile)
open Git (Call)

variable {host : Host} {folder target : Path}

/-- What comes of writing a file to a target in a folder: all that is changed between the calls of git
is changed for that file, and after a success the file is there. -/
structure WritesFile (folder target : Path) (files : FileSystem) (result : Except Failure Unit)
    (calls : List Call) (after : FileSystem) : Prop where
  carried : files.CarriedBy (Footprint folder target) calls after
  holds : result = .ok () → HoldsFile target after

/-- What is written behind some changes for the file is written by the whole. -/
theorem Ensures.bind_writesFile {State α : Type} [KeepsCalls State] {before : State}
    {action : Action State α} {next : α → Action State Unit} (files : State → FileSystem)
    (first : Ensures action host before fun _ calls after =>
      (files before).CarriedBy (Footprint folder target) calls (files after))
    (rest : ∀ value between, Ensures (next value) host between fun result calls after =>
      WritesFile folder target (files between) result calls (files after)) :
    Ensures (action >>= next) host before fun result calls after =>
      WritesFile folder target (files before) result calls (files after) := by
  refine Ensures.bind first ?_ fun _ _ _ hcarried => ⟨hcarried, nofun⟩
  intro value calls between hcarried
  refine (rest value between).mono fun result more after hwrites => ?_
  exact ⟨hcarried.append (fun _ _ _ => Footprint.trans) hwrites.carried, hwrites.holds⟩

/-- An edit that does nothing but write the file writes it as an operation. -/
theorem Ensures.edit_writesFile {change : FileSystem.Edit Unit} {before : Workspace}
    (h : change.Ensures before.files fun result after =>
      Footprint folder target before.files after ∧ (result = .ok () → HoldsFile target after)) :
    Ensures (Operation.edit change) host before fun result calls after =>
      WritesFile folder target before.files result calls after.files := by
  obtain ⟨hfootprint, hholds⟩ := h
  refine Ensures.edit ⟨hfootprint, fun hresult => hholds ?_⟩
  show (change.run.run before.files).1 = .ok ()
  cases hdone : (change.run.run before.files).1 with
  | ok _ => rfl
  | error fault =>
    rw [hdone] at hresult
    cases hresult

/-- Showing a file writes it. -/
theorem WorkingCopy.ensures_showFile_writesFile {workingCopy : Path} (reference file : String)
    (before : Workspace) :
    Ensures (showFile workingCopy reference file folder) host before fun result calls after =>
      WritesFile folder (folder.join ⟨file⟩) before.files result calls after.files := by
  have hfolder {path : Path} (hpath : path = folder ∨ (folder.join ⟨file⟩).parent? = some path)
      (between : Workspace) : Ensures (Operation.edit (createFolders path)) host between
        fun _ calls after =>
          between.files.CarriedBy (Footprint folder (folder.join ⟨file⟩)) calls after.files :=
    Ensures.edit (FileSystem.ensures_createFolders_footprint hpath)
  -- the folder is made before git is asked for the file, and the one of the target behind its answer
  refine Ensures.bind_writesFile Workspace.files (hfolder (.inl rfl) before) fun _ between => ?_
  refine Ensures.bind_writesFile Workspace.files
    ((Reference.madeOf_qualifiedName reference).ensures_carriedBy .refl between) fun name between => ?_
  refine Ensures.bind_writesFile Workspace.files
    ((MadeOf.report _ _ _ : MadeOf (fun _ => True) _).ensures_carriedBy .refl between)
    fun _ between => ?_
  refine Ensures.bind_writesFile Workspace.files
    ((MadeOf.run trivial : MadeOf (fun _ => True) _).ensures_carriedBy .refl between)
    fun contents between => ?_
  have hwrite (between : Workspace) :
      Ensures (Operation.edit (writeFile (folder.join ⟨file⟩) contents)) host between
        fun result calls after =>
          WritesFile folder (folder.join ⟨file⟩) between.files result calls after.files :=
    .edit_writesFile (FileSystem.ensures_writeFile_footprint contents)
  split
  · next parent hparent =>
    exact Ensures.bind_writesFile Workspace.files (hfolder (.inr hparent) between) fun _ => hwrite
  · exact hwrite between

namespace Repository

variable {repository : Repository} {workingCopy : Path}

/-- Copying a file from a folder writes it. -/
theorem ensures_copyFileFrom_writesFile (source : Path) (file : String) (before : Workspace) :
    Ensures (copyFileFrom source file folder) host before fun result calls after =>
      WritesFile folder (folder.join ⟨file⟩) before.files result calls after.files :=
  Ensures.bind_writesFile Workspace.files
    ((MadeOf.report _ _ _ : MadeOf (fun _ => True) _).ensures_carriedBy .refl before)
    fun _ _ => Ensures.edit_writesFile (FileSystem.ensures_copyFile_footprint _)

/-- A fetch leaves the files to git. -/
theorem ensures_fetch_carried (before : Workspace) :
    Ensures (fetch workingCopy) host (repository, before) fun _ calls after =>
      before.files.Carried calls after.2.files := by
  cases hclosed : repository.fetched.isClosed with
  | true => exact ensures_fetch_of_closed hclosed rfl
  | false => exact ensures_fetch_of_open hclosed ((madeOf_fetchFrom _).ensures_carried host before)

/-- Fetching a file writes it. -/
theorem ensures_fetchFile_writesFile (file : String) (before : Workspace) :
    Ensures (fetchFile workingCopy file folder) host (repository, before) fun result calls after =>
      WritesFile folder (folder.join ⟨file⟩) before.files result calls after.2.files := by
  have hnetwork : Ensures (fetch workingCopy >>= fun _ => get >>= fun state =>
      Task.ofOperation (WorkingCopy.showFile workingCopy state.1.commit file folder)) host
      (repository, before) fun result calls after =>
        WritesFile folder (folder.join ⟨file⟩) before.files result calls after.2.files := by
    refine Ensures.bind_writesFile (·.2.files) ((ensures_fetch_carried before).mono
      fun _ _ _ hcarried => hcarried.carriedBy .refl) fun _ between => ?_
    exact Ensures.step rfl rfl (.ofOperation
      (WorkingCopy.ensures_showFile_writesFile _ file between.2))
  refine Ensures.step rfl rfl ?_
  dsimp only
  cases repository.source with
  | folder path => exact .ofOperation (ensures_copyFileFrom_writesFile path file before)
  | hosted hosted => exact hnetwork
  | remote url => exact hnetwork

/-- Whatever git does, and as long as there are no links, fetching a file changes nothing between the
calls of git but for that file, which lies after a success where the folder joined with its name leads
by the text. If the name is relative and never leads up from where it starts, nothing outside the
folder is changed, but for folders that are made where they were missing on the way to it. -/
theorem fetched_file_lies (workingCopy folder : Path) (file : String) (host : Host)
    (repository : Repository) (before : Workspace) :
    let target := folder.join ⟨file⟩
    let served := (fetchFile workingCopy file folder).carryOut host repository before
    let after := served.2.2
    ∃ calls, after.calls = calls.reverse ++ before.calls ∧
      before.files.CarriedBy (Footprint folder target) calls after.files ∧
      (served.1 = .ok () → HoldsFile target after.files) ∧
      ((⟨file⟩ : Path).isAbsolute = false → staysBelow 0 (⟨file⟩ : Path).names = true →
        before.files.CarriedBy (ChangesInside folder) calls after.files) := by
  intro target served after
  obtain ⟨calls, hcalls, hwrites⟩ :=
    @ensures_fetchFile_writesFile host folder repository workingCopy file before
  refine ⟨calls, hcalls, hwrites.carried, hwrites.holds, fun hrelative hstays => ?_⟩
  exact hwrites.carried.mono fun _ _ hfootprint => hfootprint.changesInside hrelative hstays

/-- A file that is named in a folder of the source is written in such a folder of the target, and
nothing is changed outside the target. -/
theorem fetched_file_lies_of_relative :
    let files : FileSystem := { entries := [(["s"], .folder), (["s", "a"], .folder),
      (["s", "a", "x"], .file [120])] }
    let served := (fetchFile ⟨"/w"⟩ "a/x" ⟨"/out"⟩).carryOut ⟨none, ⟨[]⟩⟩
      { source := .folder ⟨"/s"⟩ } { files }
    served.1 = .ok () ∧ (∃ contents, served.2.2.files.find? ["out", "a", "x"] = some (.file contents)) ∧
      files.HasNoLinks [] ∧ ChangesInside ⟨"/out"⟩ files served.2.2.files := by
  intro files served
  have hserved : (fetchFile ⟨"/w"⟩ "a/x" ⟨"/out"⟩).carryOut ⟨none, ⟨[]⟩⟩
    { source := .folder ⟨"/s"⟩ } { files } = served := rfl
  have hdone : served.1 = .ok () ∧ served.2.2.calls = [] ∧
      served.2.2.files = { files with entries := [(["out", "a", "x"], .file [120]),
        (["out", "a"], .folder), (["out"], .folder)] ++ files.entries } := by decide +kernel
  obtain ⟨hsucceeded, hnone, hfiles⟩ := hdone
  have hlinks : served.2.2.files.HasNoLinks [] := by
    rw [hfiles]
    exact FileSystem.hasNoLinks_of_entries (by simp [files])
  have htarget : FileSystem.lexicalPlace served.2.2.files.start ((⟨"/out"⟩ : Path).join ⟨"a/x"⟩) =
      ["out", "a", "x"] := by decide +kernel
  obtain ⟨calls, hcalls, -, hholds, hinside⟩ := fetched_file_lies ⟨"/w"⟩ ⟨"/out"⟩ "a/x"
    ⟨none, ⟨[]⟩⟩ { source := .folder ⟨"/s"⟩ } { files }
  rw [hserved] at hcalls hholds hinside
  rw [hnone, List.append_nil] at hcalls
  obtain rfl := List.reverse_eq_nil_iff.mp hcalls.symm
  refine ⟨hsucceeded, ?_, FileSystem.hasNoLinks_of_entries (by simp [files]), ?_⟩
  · rw [← htarget]
    exact hholds hsucceeded hlinks
  · exact FileSystem.carriedBy_nil.mp (hinside rfl (by decide +kernel))

/-- A file that is named beside the source is written beside the target, and not in it. -/
theorem fetched_file_escapes :
    let files : FileSystem := { entries := [(["p"], .folder), (["p", "s"], .folder),
      (["p", "x"], .file [120])] }
    let served := (fetchFile ⟨"/w"⟩ "../x" ⟨"/out"⟩).carryOut ⟨none, ⟨[]⟩⟩
      { source := .folder ⟨"/p/s"⟩ } { files }
    files.HasNoLinks [] ∧ served.1 = .ok () ∧ served.2.2.calls = [] ∧
      files.find? ["x"] = none ∧ served.2.2.files.find? ["x"] = some (.file [120]) ∧
      isBelow ["x"] (FileSystem.lexicalPlace files.start ⟨"/out"⟩) = false ∧
      ¬ files.CarriedBy (ChangesInside ⟨"/out"⟩) [] served.2.2.files := by
  intro files served
  have hlinks : files.HasNoLinks [] := FileSystem.hasNoLinks_of_entries (by simp [files])
  have hwritten : served.2.2.files.find? ["x"] = some (.file [120]) := by decide +kernel
  have houtside : isBelow ["x"] (FileSystem.lexicalPlace files.start ⟨"/out"⟩) = false := by
    decide +kernel
  refine ⟨hlinks, by decide +kernel, by decide +kernel, rfl, hwritten, houtside, ?_⟩
  generalize served.2.2.files = after at hwritten
  intro hcarried
  rcases FileSystem.carriedBy_nil.mp hcarried hlinks ["x"] (by rw [hwritten]; exact nofun) with
    hbelow | ⟨-, -, hfolder⟩
  · rw [houtside] at hbelow
    cases hbelow
  · rw [hwritten] at hfolder
    cases hfolder

end Repository

end WorkingCopies
