import WorkingCopies.Proofs.CommandLine.ExitStatus

/-!
# Changes that are seen

There are three versions of a file that git tracks: the one of the commit that is checked out, the
one in the index and the one in the working tree. Git is asked for the files of which the last two
differ, and a working copy counts as clean where it names none: what an update merges and leaves in
the index is no change. So a file that was staged and left alone from then on is not seen, and the
copy that holds it is reported as clean and is updated.
-/

namespace WorkingCopies

open Git (Command)
open WorkingCopy (changesArguments hasChanges)

variable {host : Host} {git : Git} {before : Workspace} {place : Path}

/-- A file that git tracks: one that the commit checked out holds, or the index. -/
structure TrackedFile where
  /-- Its path as git prints it. -/
  path : String
  committed : Option Bytes
  staged : Option Bytes
  present : Option Bytes
  isTracked : committed.isSome || staged.isSome
  deriving DecidableEq

namespace TrackedFile

variable {file : TrackedFile}

/-- Whether the working tree has another version of a file than the index. -/
def isEdited (file : TrackedFile) : Bool := file.staged.isSome && file.present != file.staged

/-- Whether the index has another version of a file than the commit. -/
def isStaged (file : TrackedFile) : Bool := file.staged != file.committed

/-- Whether the three versions of a file are the same. -/
def IsUnchanged (file : TrackedFile) : Prop :=
  file.committed = file.staged ∧ file.staged = file.present

/-- A file is unchanged if it is neither edited nor staged. -/
theorem isUnchanged_iff :
    file.IsUnchanged ↔ file.isEdited = false ∧ file.isStaged = false := by
  have htracked := file.isTracked
  cases hstaged : file.staged with
  | none =>
    rw [hstaged] at htracked
    have hcommitted : file.committed ≠ none := by
      rintro hnone
      simp [hnone] at htracked
    simp [IsUnchanged, isStaged, hstaged, hcommitted, hcommitted.symm]
  | some contents =>
    simp only [IsUnchanged, isEdited, isStaged, hstaged, Option.isSome_some, Bool.true_and,
      bne_eq_false_iff_eq]
    exact ⟨fun h => ⟨h.2.symm, h.1.symm⟩, fun h => ⟨h.2.symm, h.1.symm⟩⟩

end TrackedFile

/-- What git prints for some files: a line for the path of each one that is edited. -/
def editedPaths (files : List TrackedFile) : String :=
  CommandLine.unlines ((files.filter (·.isEdited)).map (·.path))

/-- Nothing is printed exactly if no file is edited. -/
theorem encode_editedPaths_isEmpty (files : List TrackedFile) :
    (Text.encode (editedPaths files)).isEmpty = !files.any (·.isEdited) := by
  have hlines (paths : List String) :
      (Text.encode (CommandLine.unlines paths)).isEmpty = paths.isEmpty := by
    rw [Bool.eq_iff_iff, List.isEmpty_iff, List.isEmpty_iff, Text.encode_eq_nil_iff]
    cases paths <;> simp [CommandLine.unlines, String.join_cons]
  rw [editedPaths, hlines, Bool.eq_iff_iff]
  simp

/-- Whether git, asked for the changes of a working copy that has some tracked files, succeeds and
prints those that are edited. -/
def Git.ListsEdited (git : Git) (workspace : Workspace) (workingCopy : Path)
    (files : List TrackedFile) : Prop :=
  ∃ folder reply,
    (git.attempt workspace (some workingCopy) changesArguments).outcome = .finished folder reply ∧
      reply.status = 0 ∧ reply.output = Text.encode (editedPaths files)

namespace Git.ListsEdited

variable {files : List TrackedFile}

/-- Git goes by the calls and the files alone. -/
theorem of_view {first second : Workspace} (h : git.ListsEdited first place files)
    (hview : first.view = second.view) : git.ListsEdited second place files := by
  unfold ListsEdited
  rw [← attempt_eq_of_view hview]
  exact h

/-- Git is asked in a folder that is there. -/
theorem leadsAnywhere (h : git.ListsEdited before place files) :
    before.files.leadsAnywhere place = true := by
  obtain ⟨folder, reply, hfinished, hstatus, -⟩ := h
  have hsucceeded : (git.attempt before (some place) changesArguments).succeeded = true := by
    simp [Call.succeeded, hfinished, hstatus]
  obtain ⟨location, hlocation⟩ := startingFolder_of_succeeded hsucceeded
  exact FileSystem.leadsAnywhere_of_isFolder (of_startingFolder_eq_ok hlocation).1

/-- A working copy has changes exactly if a file is edited, and git is asked once for them. -/
theorem ensures_hasChanges (hgit : host.git = some git)
    (h : git.ListsEdited before place files) :
    Ensures (hasChanges place) host before fun result _ after =>
      result = .ok (files.any (·.isEdited)) ∧
        after.view = before.view.behind (git.attempt before (some place) changesArguments) := by
  obtain ⟨folder, reply, hfinished, hstatus, houtput⟩ := h
  have hexecute : Ensures (Git.execute place changesArguments) host before fun result _ after =>
      result = .ok reply.output ∧
        after.view = before.view.behind (git.attempt before (some place) changesArguments) := by
    refine ensures_execute hgit fun after hafter => ⟨?_, hafter⟩
    rw [hfinished, Command.conclude, if_pos hstatus]
  refine Ensures.bind hexecute ?_ ?_
  · intro output calls after hread
    obtain ⟨hread, hafter⟩ := hread
    obtain rfl := Except.ok.inj hread
    refine Ensures.pure ⟨?_, hafter⟩
    rw [houtput, encode_editedPaths_isEmpty, Bool.not_not]
  · intro failure calls after hfailed
    cases hfailed.1

end Git.ListsEdited

namespace CommandLine

variable {options : Options} {colour : Colour} {target : Target} {reference : String}
  {repository : Repository} {files : List TrackedFile}

/-- Getting a repository ready leaves git what it can go by. -/
theorem Work.ensures_repository_view {name : String} :
    Work.Ensures (Work.repository options name) host before fun result _ after =>
      result = ((Work.repository options name).outcome host before).1 ∧
        after.view = before.view := by
  refine (Work.ensures_repository options name).with_calls.mono ?_
  rintro result _ after ⟨hcalls, hresult, rfl, hfiles, -⟩
  exact ⟨hresult, Prod.ext hcalls hfiles⟩

/-- Looking for changes as a part of a command finds whether a file is edited. -/
theorem Work.ensures_hasChanges (hgit : host.git = some git)
    (hlists : git.ListsEdited before place files) :
    Work.Ensures (Work.ofOperation .failed (hasChanges place)) host before fun result _ after =>
      result = .ok (files.any (·.isEdited)) ∧
        after.view = before.view.behind (git.attempt before (some place) changesArguments) := by
  refine .ofOperation ((hlists.ensures_hasChanges hgit).mono ?_)
  rintro _ _ after ⟨rfl, hafter⟩
  exact ⟨rfl, hafter⟩

namespace Command

/-- The line that tells whether a working copy has changes. -/
def statusLine (colour : Colour) (target : Target) (changed : Bool) : String :=
  if changed then
    colour.choose "📝" "[MODIFIED]" ++ " " ++ target.repository ++ " has uncommitted changes"
  else colour.choose "✅" "[CLEAN]" ++ " " ++ target.repository ++ " is clean"

/-- A clean working copy has another line than one with changes. -/
theorem statusLine_inj {changed other : Bool} :
    statusLine colour target changed = statusLine colour target other ↔ changed = other := by
  have hne : statusLine colour target false ≠ statusLine colour target true := by
    intro hsame
    -- the pictures in front depend on the colours, but the ends do not
    have hends := congrArg (fun line => line.toList.getLast?) hsame
    simp only [statusLine, Bool.false_eq_true, if_false, if_true, String.toList_append,
      List.getLast?_append] at hends
    cases hends
  cases changed <;> cases other <;> simp [hne, hne.symm]

/-- The status of a working copy tells whether a file is edited. -/
theorem ensures_run_status (hgit : host.git = some git)
    (hrepository : ((Work.repository options target.repository).outcome host before).1 =
      .ok repository)
    (hlists : git.ListsEdited before target.place files) :
    Work.Ensures (run options colour (.status target)) host before fun result _ _ =>
      result = .ok [statusLine colour target (files.any (·.isEdited))] := by
  have hstatus : run options colour (.status target) =
      Work.repository options target.repository >>= fun _ =>
        Work.ofOperation .failed (hasChanges target.place) >>= fun changed =>
          pure [statusLine colour target changed] := by
    have hlines : (fun changed => pure [statusLine colour target changed]) =
        fun changed => (if changed then pure [statusLine colour target true]
          else pure [statusLine colour target false] : Work (List String)) := by
      funext changed
      cases changed <;> rfl
    rw [hlines]
    exact bind_map_left _ _ _
  rw [hstatus]
  refine .bind Work.ensures_repository_view ?_ ?_
  · rintro _ _ between ⟨-, hview⟩
    refine .bind (Work.ensures_hasChanges hgit (hlists.of_view hview.symm)) ?_ ?_
    · intro changed _ _ hchanged
      obtain rfl := Except.ok.inj hchanged.1
      exact .pure rfl
    · intro problem _ _ hfailed
      cases hfailed.1
  · rintro problem _ _ ⟨hresult, -⟩
    rw [hrepository] at hresult
    cases hresult

/-- Changes are refused exactly if a file is edited. -/
theorem ensures_refuseChanges_of_listed (hgit : host.git = some git)
    (hlists : git.ListsEdited before place files) :
    Work.Ensures (refuseChanges place) host before fun result _ after =>
      result = (if files.any (·.isEdited) then .error (refusal place) else .ok ()) ∧
        after.view = before.view.behind (git.attempt before (some place) changesArguments) := by
  refine .bind (Work.ensures_hasChanges hgit hlists) ?_ ?_
  · intro changed _ _ hread
    obtain ⟨hchanged, hafter⟩ := hread
    obtain rfl := Except.ok.inj hchanged
    cases files.any (·.isEdited) with
    | true => exact .throw ⟨rfl, hafter⟩
    | false => exact .pure ⟨rfl, hafter⟩
  · intro problem _ _ hfailed
    cases hfailed.1

/-- What an update does when nothing stands against it is not refused. -/
theorem proceedUpdate_ne_refusal {other : Path} :
    ((proceedUpdate colour target reference repository).outcome host before).1 ≠
      .error (refusal other) := by
  intro hrefused
  unfold proceedUpdate at hrefused
  rw [Work.outcome_bind] at hrefused
  cases houtcome : Work.outcome (Work.ofTask { repository with commit := reference } do
      Repository.update target.place reference
      Task.ofOperation (Repository.repairOrigin target.place repository.source)
      Task.ofOperation (WorkingCopy.hashOf target.place "HEAD")) host before with
  | mk result after =>
    rw [houtcome] at hrefused
    cases result with
    | ok value => cases hrefused
    | error problem =>
      obtain ⟨failure, rfl⟩ := Work.problem_ofTask (congrArg Prod.fst houtcome)
      cases hrefused

/-- An update of a working copy of which git lists the edited files is refused if there is one, and
goes on behind that call if there is none. -/
theorem outcome_runUpdate_of_listed (hgit : host.git = some git)
    (hrepository : ((Work.repository options target.repository).outcome host before).1 =
      .ok repository)
    (hlists : git.ListsEdited before target.place files) :
    ∃ behind : Workspace,
      behind.view = before.view.behind (git.attempt before (some target.place) changesArguments) ∧
        (runUpdate options colour target reference).outcome host before =
          if files.any (·.isEdited) then (.error (refusal target.place), behind)
          else (proceedUpdate colour target reference repository).outcome host behind := by
  obtain ⟨-, -, -, hview⟩ := @Work.ensures_repository_view host before options target.repository
  cases hready : (Work.repository options target.repository).outcome host before with
  | mk result between =>
    rw [hready] at hrepository hview
    obtain rfl : result = .ok repository := hrepository
    have hlisted := hlists.of_view (Eq.symm hview)
    obtain ⟨-, -, hresult, hbehind⟩ := ensures_refuseChanges_of_listed hgit hlisted
    refine ⟨((refuseChanges target.place).outcome host between).2, ?_, ?_⟩
    · rw [hbehind, Git.attempt_eq_of_view hview, hview]
    · rw [runUpdate_eq, Work.outcome_bind, hready]
      dsimp only
      rw [Work.outcome_bind_get, if_pos hlisted.leadsAnywhere, Work.outcome_bind]
      cases hrefuse : (refuseChanges target.place).outcome host between with
      | mk result behind =>
        rw [hrefuse] at hresult
        obtain rfl : result = _ := hresult
        cases files.any (·.isEdited) <;> rfl

/-- An update of such a working copy goes on behind that call exactly if no file is edited, and is
refused behind it exactly if one is. -/
theorem runUpdate_goesOn_iff_and_isRefused_iff (hgit : host.git = some git)
    (hrepository : ((Work.repository options target.repository).outcome host before).1 =
      .ok repository)
    (hlists : git.ListsEdited before target.place files) :
    let update := (runUpdate options colour target reference).outcome host before
    let asked := before.view.behind (git.attempt before (some target.place) changesArguments)
    ((∃ behind : Workspace, behind.view = asked ∧
        update = (proceedUpdate colour target reference repository).outcome host behind) ↔
      files.any (·.isEdited) = false) ∧
    (update.1 = .error (refusal target.place) ∧ update.2.view = asked ↔
      files.any (·.isEdited) = true) := by
  intro update asked
  obtain ⟨behind, hbehind, hupdate⟩ :
      ∃ behind : Workspace, behind.view = asked ∧ update =
        if files.any (·.isEdited) then (.error (refusal target.place), behind)
        else (proceedUpdate colour target reference repository).outcome host behind :=
    outcome_runUpdate_of_listed hgit hrepository hlists
  cases hedited : files.any (·.isEdited) with
  | false =>
    rw [hedited, if_neg Bool.false_ne_true] at hupdate
    refine ⟨iff_of_true ⟨behind, hbehind, hupdate⟩ rfl, iff_of_false ?_ Bool.false_ne_true⟩
    rintro ⟨hrefused, -⟩
    rw [hupdate] at hrefused
    exact proceedUpdate_ne_refusal hrefused
  | true =>
    rw [hedited, if_pos rfl] at hupdate
    have hrefused : update.1 = .error (refusal target.place) := congrArg Prod.fst hupdate
    refine ⟨iff_of_false ?_ (Ne.symm Bool.false_ne_true), iff_of_true ⟨hrefused, ?_⟩ rfl⟩
    · rintro ⟨other, -, hother⟩
      rw [hother] at hrefused
      exact proceedUpdate_ne_refusal hrefused
    · rw [hupdate]
      exact hbehind

end Command

/-- Where git lists the edited files of a working copy, the copy is reported as clean, and an update
goes on behind that call, exactly if no file is edited; any other copy is reported as changed, and
its update is refused. Staged files are not seen: the files of a clean copy are unchanged only where
none of them is staged. -/
theorem clean_iff_none_edited (hgit : host.git = some git)
    (hrepository : ((Work.repository options target.repository).outcome host before).1 =
      .ok repository)
    (hlists : git.ListsEdited before target.place files) :
    let status := (Command.run options colour (.status target)).outcome host before
    let update := (Command.run options colour (.update target reference)).outcome host before
    let asked := before.view.behind (git.attempt before (some target.place) changesArguments)
    let isClean := status.1 = .ok [Command.statusLine colour target false]
    let isChanged := status.1 = .ok [Command.statusLine colour target true]
    let goesOn := ∃ behind : Workspace, behind.view = asked ∧
      update = (Command.proceedUpdate colour target reference repository).outcome host behind
    let isRefused := update.1 = .error (Command.refusal target.place) ∧ update.2.view = asked
    (isClean ↔ ∀ file ∈ files, file.isEdited = false) ∧ (goesOn ↔ isClean) ∧
      (isChanged ↔ ¬ isClean) ∧ (isRefused ↔ ¬ isClean) ∧
      ((∀ file ∈ files, file.IsUnchanged) ↔ isClean ∧ ∀ file ∈ files, file.isStaged = false) := by
  intro status update asked isClean isChanged goesOn isRefused
  obtain ⟨-, -, hstatus⟩ :=
    @Command.ensures_run_status host git before options colour target repository files hgit
      hrepository hlists
  obtain ⟨hgoesOn, hrefused⟩ :=
    @Command.runUpdate_goesOn_iff_and_isRefused_iff host git before options colour target reference
      repository files hgit hrepository hlists
  have hclean : isClean ↔ files.any (·.isEdited) = false := by
    simp only [isClean, status, hstatus, Except.ok.injEq, List.cons.injEq, and_true,
      Command.statusLine_inj]
  have hchanged : isChanged ↔ files.any (·.isEdited) = true := by
    simp only [isChanged, status, hstatus, Except.ok.injEq, List.cons.injEq, and_true,
      Command.statusLine_inj]
  have hunclean : files.any (·.isEdited) = true ↔ ¬ isClean := by
    rw [hclean, Bool.not_eq_false]
  have hnone : files.any (·.isEdited) = false ↔ ∀ file ∈ files, file.isEdited = false := by
    simp
  refine ⟨hclean.trans hnone, hgoesOn.trans hclean.symm, hchanged.trans hunclean,
    hrefused.trans hunclean, ?_⟩
  simp only [hclean, hnone, TrackedFile.isUnchanged_iff, forall_and]

/-- The update of a working copy with an edited file is refused. -/
theorem clean_iff_none_edited_of_edited_file :
    let file : TrackedFile :=
      ⟨"a.txt", some (Text.encode "old"), some (Text.encode "old"), some (Text.encode "new"), rfl⟩
    let workspace : Workspace := { files := { entries :=
      [(["m.yml"], .file (Text.encode "repository.w: \x7btype: local\x7d\n")),
        (["repos"], .folder), (["repos", "w"], .folder),
        (["repos", "w", "a.txt"], .file (Text.encode "new"))] } }
    let git : Git := fun _ files request =>
      .ok (if request.arguments = changesArguments then { output := Text.encode "a.txt\n" } else {},
        files)
    let host : Host := ⟨some git, ⟨[]⟩⟩
    let options : Options := ⟨⟨"m.yml"⟩, none, "auto", some .info, false, false⟩
    let target : Target := ⟨"w", none⟩
    let update := (Command.run options ⟨false⟩ (.update target "main")).outcome host workspace
    git.ListsEdited workspace target.place [file] ∧
      (∃ repository, ((Work.repository options target.repository).outcome host workspace).1 =
        .ok repository) ∧
      ((Command.run options ⟨false⟩ (.status target)).outcome host workspace).1 =
        .ok [Command.statusLine ⟨false⟩ target true] ∧
      update.1 = .error (Command.refusal target.place) ∧ update.2.view =
        workspace.view.behind (git.attempt workspace (some target.place) changesArguments) := by
  intro file workspace git host options target update
  have hlists : git.ListsEdited workspace target.place [file] :=
    ⟨["repos", "w"], { output := Text.encode "a.txt\n" }, by decide +kernel, rfl, by decide +kernel⟩
  have hready : ((Work.repository options target.repository).outcome host
      workspace).1.toOption.isSome = true := by
    decide +kernel
  obtain ⟨repository, hrepository⟩ : ∃ repository,
      ((Work.repository options target.repository).outcome host workspace).1 = .ok repository := by
    cases hresult : ((Work.repository options target.repository).outcome host workspace).1 with
    | ok repository => exact ⟨repository, rfl⟩
    | error problem =>
      rw [hresult] at hready
      cases hready
  obtain ⟨hclean, -, hchanged, hrefused, -⟩ :=
    @clean_iff_none_edited host git workspace options ⟨false⟩ target "main" repository [file] rfl
      hrepository hlists
  have hedited : ¬ ∀ found ∈ [file], found.isEdited = false := by decide +kernel
  have hunclean := mt hclean.mp hedited
  exact ⟨hlists, ⟨repository, hrepository⟩, hchanged.mpr hunclean, hrefused.mpr hunclean⟩

/-- The working copy of a file that was staged and left alone from then on is reported as clean, and
its update, which for a folder as source makes the copy anew, loses the file. -/
theorem clean_though_staged :
    let file : TrackedFile :=
      ⟨"a.txt", some (Text.encode "old"), some (Text.encode "new"), some (Text.encode "new"), rfl⟩
    let workspace : Workspace := { files := { entries :=
      [(["m.yml"], .file (Text.encode "repository.w: \x7btype: local\x7d\n")),
        (["repos"], .folder), (["repos", "w"], .folder),
        (["repos", "w", "a.txt"], .file (Text.encode "new"))] } }
    let git : Git := fun _ files request =>
      if request.arguments = changesArguments then .ok ({}, files)
      else .ok ({ output := Text.encode "a.txt\n" }, files)
    let host : Host := ⟨some git, ⟨[]⟩⟩
    let target : Target := ⟨"w", none⟩
    git.ListsEdited workspace target.place [file] ∧ ¬ file.IsUnchanged ∧
      (run ["--manifest", "m.yml", "status", "w"] host workspace).output = "[CLEAN] w is clean\n" ∧
      workspace.files.bytesAt ⟨"repos/w/a.txt"⟩ = .ok (Text.encode "new") ∧
      (run ["--manifest", "m.yml", "update", "w", "main"] host
        workspace).workspace.files.leadsAnywhere ⟨"repos/w"⟩ = false := by
  intro file workspace git host target
  have hlists : git.ListsEdited workspace target.place [file] :=
    ⟨["repos", "w"], {}, by decide +kernel, rfl, by decide +kernel⟩
  have hstaged : ¬ file.IsUnchanged := fun h => absurd h.1 (by decide +kernel)
  have hcome : ((run ["--manifest", "m.yml", "status", "w"] host workspace).output,
      (run ["--manifest", "m.yml", "update", "w", "main"] host
        workspace).workspace.files.leadsAnywhere ⟨"repos/w"⟩) =
      ("[CLEAN] w is clean\n", false) := by decide +kernel
  exact ⟨hlists, hstaged, congrArg Prod.fst hcome, rfl, congrArg Prod.snd hcome⟩

end CommandLine

end WorkingCopies
