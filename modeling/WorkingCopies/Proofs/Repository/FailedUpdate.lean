import WorkingCopies.Proofs.Repository.SourceFolder
import WorkingCopies.Proofs.Repository.Steps

/-!
# What a failed update costs

An update from a folder removes the working copy and then makes it anew. It is not undone when it
fails: what the removal took is gone before the source is looked at, and what is left is what a
download into the cleared place leaves. Only a removal that is refused at once costs nothing.
-/

namespace WorkingCopies

open FileSystem (isBelow removeTree)

variable {host : Host} {before : Workspace} {workingCopy path : Path} {reference : String}
  {failure : Failure}

namespace FileSystem

/-- What is left of files when the removal of a working copy has ended. -/
def cleared (files : FileSystem) (workingCopy : Path) : FileSystem :=
  ((removeTree workingCopy).outcome files).2

/-- Why a working copy cannot be removed, if it cannot. That it is missing is no reason. -/
def removalFault? (files : FileSystem) (workingCopy : Path) : Option Fault :=
  match ((removeTree workingCopy).outcome files).1 with
  | .ok () => none
  | .error fault => if fault.saysMissing then none else some fault

/-- What is left, and why the rest was not removed, are read off how the removal went. -/
theorem of_outcome_removeTree {files left : FileSystem} {result : Except Fault Unit} :
    (removeTree workingCopy).outcome files = (result, left) →
      cleared files workingCopy = left ∧ removalFault? files workingCopy =
        match result with
        | .ok () => none
        | .error fault => if fault.saysMissing then none else some fault :=
  fun h => ⟨congrArg Prod.snd h, by rw [removalFault?, h]⟩

end FileSystem

open FileSystem (cleared of_outcome_removeTree removalFault?)

/-- Removing a working copy ends with its fault, if there is one, and leaves what is left. -/
theorem WorkingCopy.outcome_remove :
    Action.outcome (remove workingCopy) host before =
      (match removalFault? before.files workingCopy with
        | none => .ok ()
        | some fault => .error (.fileSystem fault),
        { before with files := cleared before.files workingCopy }) := by
  have hattempt : Action.outcome (Operation.edit (removeTree workingCopy)).attempt host before =
      (.ok (((removeTree workingCopy).outcome before.files).1.mapError .fileSystem),
        { before with files := cleared before.files workingCopy }) :=
    congrArg (fun outcome => (Except.ok outcome.1, outcome.2))
      (outcome_edit (removeTree workingCopy) host before)
  unfold remove removalFault?
  rw [outcome_bind, hattempt]
  cases ((removeTree workingCopy).outcome before.files).1 with
  | ok _ => rfl
  | error fault =>
    show Action.outcome (if _ then _ else _) _ _ = _
    by_cases hmissing : fault.saysMissing = true
    · simp only [hmissing]
      rfl
    · simp only [hmissing]
      rfl

namespace Repository

variable {repository : Repository}

/-- An update from a folder ends where its removal is refused, and is else a download into what the
removal has left. -/
theorem carryOut_update_folder (hsource : repository.source = .folder path) :
    let left : Workspace := { before with files := cleared before.files workingCopy }
    let downloaded := (downloadFrom reference workingCopy (.folder path)).carryOut host left
    (update workingCopy reference).carryOut host repository before =
      match removalFault? before.files workingCopy with
      | none => (downloaded.1, repository, downloaded.2)
      | some fault => (.error (.fileSystem fault), repository, left) := by
  intro left downloaded
  obtain ⟨source, commit, fetched⟩ := repository
  obtain rfl : source = .folder path := hsource
  have hupdate : (update workingCopy reference).carryOut host
      { source := .folder path, commit, fetched } before =
        Action.outcome (Task.ofOperation (WorkingCopy.remove workingCopy) >>= fun _ =>
          Task.ofOperation (downloadFrom reference workingCopy (.folder path))) host
          (({ source := .folder path, commit, fetched } : Repository), before) :=
    outcome_update_folder
  have hremoved : Action.outcome (Task.ofOperation (WorkingCopy.remove workingCopy)) host
      (({ source := .folder path, commit, fetched } : Repository), before) =
        (match removalFault? before.files workingCopy with
          | none => .ok ()
          | some fault => .error (.fileSystem fault),
          { source := .folder path, commit, fetched }, left) :=
    congrArg (fun outcome => (outcome.1, ({ source := .folder path, commit, fetched } : Repository),
      outcome.2)) WorkingCopy.outcome_remove
  rw [hupdate, outcome_bind, hremoved]
  cases removalFault? before.files workingCopy <;> rfl

/-- Where the source is no folder, a download fails, changes no file and runs no command. -/
theorem carryOut_downloadFrom_of_not_isFolder (hsource : before.files.isFolder path = false) :
    let downloaded := (downloadFrom reference workingCopy (.folder path)).carryOut host before
    downloaded.1 = .error (.fileSystem (.sourceNotAFolder path.text)) ∧
      downloaded.2.files = before.files ∧ downloaded.2.calls = before.calls := by
  have hcopy : (FileSystem.copyFolder path workingCopy).Ensures before.files fun result after =>
      result = .error (.sourceNotAFolder path.text) ∧ after = before.files := by
    refine FileSystem.Edit.Ensures.bind_get ?_
    rw [if_neg (by simp [hsource])]
    exact ⟨rfl, rfl⟩
  have hdownload : Ensures (downloadFrom reference workingCopy (.folder path)) host before
      fun result calls after => result = .error (.fileSystem (.sourceNotAFolder path.text)) ∧
        after.files = before.files ∧ calls = [] := by
    refine Ensures.step rfl rfl ?_
    have hedit {between : Workspace} (hfiles : between.files = before.files) :
        Ensures (Operation.edit (FileSystem.copyFolder path workingCopy)) host between
          fun result calls after =>
            result = .error (.fileSystem (.sourceNotAFolder path.text)) ∧
              after.files = before.files ∧ calls = [] := by
      have hcopied : (FileSystem.copyFolder path workingCopy).Ensures between.files
          fun result after => result = .error (.sourceNotAFolder path.text) ∧
            after = before.files := by
        rw [hfiles]
        exact hcopy
      obtain ⟨hresult, hafter⟩ := hcopied
      exact Ensures.edit ⟨congrArg (Except.mapError Failure.fileSystem) hresult, hafter, rfl⟩
    refine Ensures.bind (hedit rfl) ?_ fun _ _ _ hfailure => ?_
    · rintro _ _ _ ⟨⟨⟩, -⟩
    · obtain ⟨hresult, hrest⟩ := hfailure
      exact ⟨by cases hresult; rfl, hrest⟩
  obtain ⟨calls, hcalls, hresult, hfiles, rfl⟩ := hdownload
  exact ⟨hresult, hfiles, hcalls⟩

/-- A failed update from a folder is a failed download into what the removal has left, or it ends with
the fault of the removal. -/
theorem failed_update_cases (hsource : repository.source = .folder path)
    (hfailed : ((update workingCopy reference).carryOut host repository before).1 =
      .error failure) :
    let after := ((update workingCopy reference).carryOut host repository before).2.2
    let left : Workspace := { before with files := cleared before.files workingCopy }
    match removalFault? before.files workingCopy with
    | none =>
      (downloadFrom reference workingCopy (.folder path)).carryOut host left = (.error failure, after)
    | some fault => failure = .fileSystem fault ∧ after = left := by
  intro after left
  have hupdate := @carryOut_update_folder host before workingCopy path reference repository hsource
  have hafter : after = _ := congrArg (fun outcome => outcome.2.2) hupdate
  rw [hupdate] at hfailed
  cases hfault : removalFault? before.files workingCopy with
  | none =>
    rw [hfault] at hfailed hafter
    exact Prod.ext hfailed hafter.symm
  | some fault =>
    rw [hfault] at hfailed hafter
    exact ⟨(Except.error.inj hfailed).symm, hafter⟩

/-- A failed update from a folder, by what the path of the working copy led to. A file, and a path
that cannot be followed for another reason than that something is missing, are left alone, and so is
all else. Where nothing was, nothing is removed, and of a link the link alone; the update is then a
download. Of a folder everything below it is removed first and not brought back: the update is a
download into what is left, unless what is left of the folder cannot be removed, which ends it
there. Where the source is no folder, such a download changes nothing and runs no command. -/
theorem failed_update_costs (hsource : repository.source = .folder path)
    (hfailed : ((update workingCopy reference).carryOut host repository before).1 =
      .error failure) :
    let after := ((update workingCopy reference).carryOut host repository before).2.2
    let downloaded (files : FileSystem) :=
      (downloadFrom reference workingCopy (.folder path)).carryOut host { before with files }
    let isDownload (files : FileSystem) : Prop := downloaded files = (.error failure, after)
    (∀ files : FileSystem, files.isFolder path = false →
      (downloaded files).1 = .error (.fileSystem (.sourceNotAFolder path.text)) ∧
        (downloaded files).2.files = files ∧ (downloaded files).2.calls = before.calls) ∧
    match before.files.resolve .lookAtLink workingCopy with
    | .error fault =>
      if fault.saysMissing then isDownload before.files
      else failure = .fileSystem fault ∧ after = before
    | .ok (.absent _ _) => isDownload before.files
    | .ok (.present _ (.file _)) => failure = .fileSystem .notAFolder ∧ after = before
    | .ok (.present location (.link _)) => isDownload (before.files.erase location)
    | .ok (.present location .folder) =>
      let left := cleared before.files workingCopy
      before.files.Cleared workingCopy left ∧
        (∀ place, isBelow place location = true → left.find? place = none) ∧
        match removalFault? before.files workingCopy with
        | none => isDownload left
        | some fault => failure = .fileSystem fault ∧ after = { before with files := left } := by
  intro after downloaded isDownload
  refine ⟨fun files hfiles => carryOut_downloadFrom_of_not_isFolder hfiles, ?_⟩
  have hends := failed_update_cases hsource hfailed
  have hremoved := FileSystem.outcome_removeTree before.files workingCopy
  cases hplace : before.files.resolve .lookAtLink workingCopy with
  | error fault =>
    rw [hplace] at hremoved
    obtain ⟨hleft, hfault⟩ := of_outcome_removeTree hremoved
    rw [hleft, hfault] at hends
    dsimp only at hends ⊢
    split
    · next hmissing =>
      rw [if_pos hmissing] at hends
      exact hends
    · next hnot =>
      rw [if_neg hnot] at hends
      exact hends
  | ok place =>
    rw [hplace] at hremoved
    cases place with
    | absent folder name =>
      obtain ⟨hleft, hfault⟩ := of_outcome_removeTree hremoved
      rw [hleft, hfault] at hends
      exact hends
    | present location node =>
      cases node with
      | file contents =>
        obtain ⟨hleft, hfault⟩ := of_outcome_removeTree hremoved
        rw [hleft, hfault] at hends
        exact hends
      | link target =>
        obtain ⟨hleft, hfault⟩ := of_outcome_removeTree hremoved
        rw [hleft, hfault] at hends
        exact hends
      | folder =>
        have hcleared : before.files.Cleared workingCopy (cleared before.files workingCopy) :=
          FileSystem.ensures_removeTree workingCopy
        exact ⟨hcleared, fun place hbelow => hcleared.removed place ⟨location, hplace, hbelow⟩, hends⟩

/-- Where the source is missing, an update fails with that, and nothing below the working copy is
left. -/
theorem failed_update_costs_of_missing_source :
    let files : FileSystem := { entries := [(["w"], .folder), (["w", "a"], .file [97])] }
    let host : Host := ⟨some fun _ files _ => .ok ({}, files), ⟨[]⟩⟩
    let updated := (update ⟨"/w"⟩ "HEAD").carryOut host { source := .folder ⟨"/s"⟩ } { files }
    updated.1 = .error (.fileSystem (.sourceNotAFolder "/s")) ∧ updated.2.2.calls = [] ∧
      ∀ place, isBelow place ["w"] = true → updated.2.2.files.find? place = none := by
  intro files host updated
  have hfailed : updated.1 = .error (.fileSystem (.sourceNotAFolder "/s")) := by decide +kernel
  obtain ⟨hmissing, hcosts⟩ := @failed_update_costs host { files } ⟨"/w"⟩ ⟨"/s"⟩ "HEAD" _
    { source := .folder ⟨"/s"⟩ } rfl hfailed
  obtain ⟨-, hgone, hleft⟩ := hcosts
  have hgone : ∀ place, isBelow place ["w"] = true →
      (cleared files ⟨"/w"⟩).find? place = none := hgone
  have hfault : removalFault? files ⟨"/w"⟩ = none := by decide +kernel
  dsimp only at hleft
  rw [hfault] at hleft
  obtain ⟨-, hfiles, hcalls⟩ := hmissing (cleared files ⟨"/w"⟩) (by decide +kernel)
  dsimp only at hleft hfiles hcalls
  rw [hleft] at hfiles hcalls
  exact ⟨hfailed, hcalls, fun place hbelow => (congrArg (·.find? place) hfiles).trans
    (hgone place hbelow)⟩

/-- An update whose source is missing fails, and the file that lay in the working copy is gone. -/
theorem update_loses_working_copy :
    let files : FileSystem := { entries := [(["w"], .folder), (["w", "a"], .file [97])] }
    let host : Host := ⟨some fun _ files _ => .ok ({}, files), ⟨[]⟩⟩
    let updated := (update ⟨"/w"⟩ "HEAD").carryOut host { source := .folder ⟨"/s"⟩ } { files }
    updated.1 = .error (.fileSystem (.sourceNotAFolder "/s")) ∧
      files.find? ["w", "a"] = some (.file [97]) ∧
      updated.2.2.files.find? ["w", "a"] = none := by
  intro files host updated
  refine ⟨?_, rfl, ?_⟩ <;> decide +kernel

end Repository

end WorkingCopies
