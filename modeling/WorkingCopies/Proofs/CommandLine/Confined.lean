import WorkingCopies.Proofs.CommandLine.ExitStatus
import WorkingCopies.Proofs.Git.Files

/-!
# Commands that only look

Some commands ask about a working copy or list what is declared. All that they run of git are
commands that ask, in the working copy that they are about, and they write no file. A command that
refuses its work has done no more than that, and one that cannot load what it goes by has not called
git at all.
-/

namespace WorkingCopies

open Git (Call Command)
open Reference (probeCommands)
open WorkingCopy (changesArguments hasChanges)

variable {host : Host} {before : Workspace} {place : Path} {α β : Type}

/-- The words of the commands that ask git about commits and their names. -/
def queryCommands : List String := "for-each-ref" :: "rev-parse" :: probeCommands

/-- Whether a command asks git about a working copy. -/
def Git.Command.Queries (command : Command) (workingCopy : Path) : Prop :=
  command.Names workingCopy queryCommands ∨
    command.folder = some workingCopy ∧ command.arguments.map (·.text) = changesArguments

/-- Whether a call asks git about a working copy. -/
def Git.Call.Queries (call : Call) (workingCopy : Path) : Prop :=
  call.Names workingCopy queryCommands ∨ call.Asks (some workingCopy) [changesArguments]

/-- A call of a command that asks is one that asks. -/
theorem Git.Call.Runs.queries {call : Call} {command : Command} (h : call.Runs command)
    (hcommand : command.Queries place) : call.Queries place := by
  rcases hcommand with hnames | ⟨hfolder, harguments⟩
  · exact .inl (h.names hnames)
  · exact .inr ⟨h.folder.trans hfolder, by simp [h.arguments, harguments]⟩

/-- Whether the way from some files to others is one of asking about a working copy: every call asks
git about it, and nothing but git has written a file. -/
structure LooksAt (workingCopy : Path) (before : FileSystem) (calls : List Call)
    (after : FileSystem) : Prop where
  queries : ∀ call ∈ calls, call.Queries workingCopy
  carried : before.Carried calls after

namespace LooksAt

variable {first middle last : FileSystem} {calls more : List Call}

/-- Where nothing happened nothing was done but asking. -/
theorem refl : LooksAt place first [] first := ⟨by simp, rfl⟩

/-- Asking on is asking. -/
theorem append (h : LooksAt place first calls middle) (hmore : LooksAt place middle more last) :
    LooksAt place first (calls ++ more) last :=
  ⟨List.forall_mem_append.mpr ⟨h.queries, hmore.queries⟩, h.carried.append hmore.carried⟩

end LooksAt

/-- An operation that is made of commands that ask does nothing else. -/
theorem MadeOf.ensures_looksAt {operation : Operation α}
    (h : MadeOf (·.Queries place) operation) (host : Host) (before : Workspace) :
    Ensures operation host before fun _ calls after =>
      LooksAt place before.files calls after.files := by
  refine ((h.makes host before).both (h.ensures_carried host before)).mono ?_
  intro _ calls after hcalls
  obtain ⟨hmade, hcarried⟩ := hcalls
  refine ⟨fun call hcall => ?_, hcarried⟩
  obtain ⟨command, hcommand, hruns⟩ := hmade call hcall
  exact hruns.queries hcommand

namespace CommandLine

variable {options : Options} {colour : Colour} {target : Target}

/-- Whether some work does nothing but ask about a working copy. -/
def Work.Looks (host : Host) (workingCopy : Path) (work : Work α) : Prop :=
  ∀ before, Work.Ensures work host before fun _ calls after =>
    LooksAt workingCopy before.files calls after.files

namespace Work.Looks

/-- What asks and then asks on does nothing else. -/
theorem bind {work : Work α} {next : α → Work β} (first : Looks host place work)
    (rest : ∀ value, Looks host place (next value)) : Looks host place (work >>= next) := by
  intro before
  refine Work.Ensures.bind (first before) ?_ fun _ _ _ hlooks => hlooks
  intro value calls between hlooks
  exact (rest value between).mono fun _ _ _ hmore => hlooks.append hmore

/-- Giving a value asks nothing. -/
theorem pure {value : α} : Looks host place (Pure.pure value : Work α) :=
  fun _ => .pure .refl

/-- Forgetting a value asks nothing. -/
theorem discard {work : Work α} (h : Looks host place work) :
    Looks host place (Functor.discard work) := by
  have hdiscard : Functor.discard work = work >>= fun _ => Pure.pure PUnit.unit := by
    rw [← map_eq_pure_bind]
    rfl
  rw [hdiscard]
  exact h.bind fun _ => pure

/-- An operation that asks does the same as a part of a command. -/
theorem ofOperation {problem : Failure → Problem} {operation : Operation α}
    (h : MadeOf (·.Queries place) operation) :
    Looks host place (Work.ofOperation problem operation) :=
  fun before => .ofOperation (h.ensures_looksAt host before)

/-- Getting a repository ready asks nothing. -/
theorem repository {name : String} : Looks host place (Work.repository options name) := by
  intro before
  refine (Work.ensures_repository options name).mono fun _ calls after hafter => ?_
  obtain ⟨-, rfl, hfiles, -⟩ := hafter
  rw [hfiles]
  exact .refl

end Work.Looks

namespace Command

/-- What a command works on, if it is a declared repository. -/
def target? : CommandLine.Command → Option Target
  | download target _ | update target _ | fetchFile target .. | hash target _ | names target ..
  | kind target _ | status target | repairOrigin target => some target
  | list _ => none

/-- What a command asks about, if it is one that asks about a working copy. -/
def asked? : CommandLine.Command → Option Target
  | hash target _ | names target .. | kind target _ | status target => some target
  | _ => none

end Command

/-- A command that asks about a working copy does nothing else. -/
theorem looks_run {command : CommandLine.Command} (hasked : command.asked? = some target) :
    Work.Looks host target.place (command.run options colour) := by
  have hnamed {α : Type} {operation : Operation α} {words : List String}
      (h : MadeOf (fun command => command.Names target.place words) operation)
      (hwords : words ⊆ queryCommands) : MadeOf (·.Queries target.place) operation :=
    (h.widen hwords).mono fun _ => .inl
  cases command with
  | download other reference => cases hasked
  | update other reference => cases hasked
  | fetchFile other file reference folder => cases hasked
  | repairOrigin other => cases hasked
  | list usedOnly => cases hasked
  | hash other reference =>
    cases hasked
    refine .bind (.discard .repository) fun _ => .bind (.ofOperation ?_) fun _ => .pure
    exact hnamed (WorkingCopy.madeOf_hashOf reference) (by simp [queryCommands])
  | names other reference asJson =>
    cases hasked
    refine .bind (.discard .repository) fun _ => .bind (.ofOperation ?_) fun _ => .pure
    exact hnamed (WorkingCopy.madeOf_namesOf reference) (by simp [queryCommands])
  | kind other reference =>
    cases hasked
    refine .bind (.discard .repository) fun _ => .bind (.ofOperation ?_) fun _ => .pure
    exact hnamed (Reference.madeOf_classify reference) (by simp [queryCommands])
  | status other =>
    cases hasked
    refine .bind (.discard .repository) fun _ => .bind (.ofOperation ?_) fun changed => ?_
    · exact WorkingCopy.madeOf_hasChanges.mono fun _ => .inr
    · cases changed <;> exact .pure

/-- A command whose repository cannot be got ready does nothing. -/
theorem ensures_run_of_unloaded {command : CommandLine.Command} {problem : Problem}
    (htarget : command.target? = some target)
    (hproblem : ((Work.repository options target.repository).outcome host before).1 =
      .error problem) :
    Work.Ensures (command.run options colour) host before fun _ calls after =>
      calls = [] ∧ after.files = before.files := by
  have hthen {α : Type} (next : Repository → Work α) :
      Work.Ensures (Work.repository options target.repository >>= next) host before
        fun _ calls after => calls = [] ∧ after.files = before.files := by
    refine .bind (Work.ensures_repository options target.repository) ?_
      fun _ _ _ hafter => ⟨hafter.2.1, hafter.2.2.1⟩
    intro repository calls between hbetween
    rw [hproblem] at hbetween
    cases hbetween.1
  have hdiscard {α : Type} (next : PUnit → Work α) :
      Work.Ensures (discard (Work.repository options target.repository) >>= next) host before
        fun _ calls after => calls = [] ∧ after.files = before.files := by
    have hmap : discard (Work.repository options target.repository) >>= next =
        Work.repository options target.repository >>= fun _ => next ⟨⟩ :=
      bind_map_left _ _ _
    rw [hmap]
    exact hthen _
  cases command with
  | list usedOnly => cases htarget
  | download other reference =>
    cases htarget
    refine .bind_get ?_
    dsimp only
    split
    · exact .bind_throw ⟨rfl, rfl⟩
    · exact hthen _
  | update other reference =>
    cases htarget
    exact hthen _
  | fetchFile other file reference folder =>
    cases htarget
    exact hthen _
  | repairOrigin other =>
    cases htarget
    exact hthen _
  | hash other reference =>
    cases htarget
    exact hdiscard _
  | names other reference asJson =>
    cases htarget
    exact hdiscard _
  | kind other reference =>
    cases htarget
    exact hdiscard _
  | status other =>
    cases htarget
    exact hdiscard _

/-- Listing what is declared does nothing. -/
theorem ensures_run_list (usedOnly : Bool) :
    Work.Ensures (Command.run options colour (.list usedOnly)) host before fun _ calls after =>
      calls = [] ∧ after.files = before.files :=
  .bind (Work.ensures_loadManifest options) (fun _ _ _ hafter => .pure (by simpa using hafter))
    fun _ _ _ hafter => hafter

/-- A download to a place that is taken does nothing. -/
theorem ensures_runDownload_of_exists {reference : String}
    (hexists : before.files.leadsAnywhere target.place = true) :
    Work.Ensures (Command.runDownload options colour target reference) host before
      fun _ calls after => calls = [] ∧ after.files = before.files := by
  refine .bind_get ?_
  dsimp only
  rw [if_pos hexists]
  exact .bind_throw ⟨rfl, rfl⟩

/-- How an update of a working copy that is there goes: nothing is called and no file written, or
its changes are asked for at first. Where that call fails or writes something, it is the only one,
and nothing but git has written a file. -/
def GuardsChanges (place : Path) (before : FileSystem) (calls : List Call) (after : FileSystem) :
    Prop :=
  calls = [] ∧ after = before ∨
    ∃ asked later, calls = asked :: later ∧ asked.Asks (some place) [changesArguments] ∧
      (¬ asked.WritesNothing → later = [] ∧ before.Carried [asked] after)

/-- Refusing changes does nothing but ask for them. -/
theorem looks_refuseChanges : Work.Looks host place (Command.refuseChanges place) := by
  refine .bind (.ofOperation (WorkingCopy.madeOf_hasChanges.mono fun _ => .inr)) fun changed => ?_
  cases changed with
  | true => exact fun _ => .throw .refl
  | false => exact .pure

/-- Where git is not installed, refusing changes fails and does nothing. -/
theorem ensures_refuseChanges_of_none (hgit : host.git = none) :
    Work.Ensures (Command.refuseChanges place) host before fun result calls after =>
      (∃ problem, result = .error problem) ∧ calls = [] ∧ after = before := by
  have hexecute : Ensures (Git.execute place changesArguments) host before
      fun result calls after =>
        (∃ failure, result = .error failure) ∧ calls = [] ∧ after = before := by
    refine ensures_run (fun _ => ⟨⟨_, rfl⟩, rfl, rfl⟩) ?_
    intro git hinstalled
    rw [hgit] at hinstalled
    cases hinstalled
  have hasked : Ensures (hasChanges place) host before fun result calls after =>
      (∃ failure, result = .error failure) ∧ calls = [] ∧ after = before := by
    refine Ensures.bind hexecute ?_ fun _ _ _ h => ⟨⟨_, rfl⟩, h.2⟩
    rintro output calls after ⟨⟨failure, hfailure⟩, -⟩
    cases hfailure
  have hwork : Work.Ensures (Work.ofOperation .failed (hasChanges place)) host before
      fun result calls after =>
        (∃ problem, result = .error problem) ∧ calls = [] ∧ after = before := by
    refine .ofOperation (hasked.mono ?_)
    rintro _ calls after ⟨⟨failure, rfl⟩, hnothing⟩
    exact ⟨⟨_, rfl⟩, hnothing⟩
  refine .bind hwork ?_ fun _ _ _ h => ⟨⟨_, rfl⟩, h.2⟩
  rintro changed calls after ⟨⟨problem, hproblem⟩, -⟩
  cases hproblem

/-- An update of a working copy that is there asks for its changes first. -/
theorem ensures_runUpdate_of_exists {reference : String}
    (hexists : before.files.leadsAnywhere target.place = true) :
    Work.Ensures (Command.runUpdate options colour target reference) host before
      fun _ calls after => GuardsChanges target.place before.files calls after.files := by
  rw [Command.runUpdate_eq]
  refine .bind (Work.ensures_repository options target.repository) ?_ ?_
  · intro repository calls between hbetween
    obtain ⟨-, rfl, hfiles, hfetched⟩ := hbetween
    refine .bind_get ?_
    rw [hfiles, if_pos hexists]
    simp only [List.nil_append]
    cases hgit : host.git with
    | none =>
      refine .bind (ensures_refuseChanges_of_none hgit) ?_ ?_
      · rintro _ calls after ⟨⟨problem, hproblem⟩, -⟩
        cases hproblem
      · rintro problem calls after ⟨-, rfl, rfl⟩
        exact .inl ⟨rfl, hfiles⟩
    | some git =>
      refine .bind ((ensures_refuseChanges hgit).both (looks_refuseChanges between)) ?_ ?_
      · rintro _ calls after ⟨⟨asked, hasks, hnothing, rfl⟩, -⟩
        refine (ensures_proceedUpdate hgit (hfetched repository rfl)).mono fun _ later _ _ => ?_
        exact .inr ⟨asked, later, rfl, hasks, fun hsomething => absurd hnothing hsomething⟩
      · rintro problem calls after ⟨⟨asked, hasks, -, rfl⟩, hlooks⟩
        rw [hfiles] at hlooks
        exact .inr ⟨asked, [], rfl, hasks, fun _ => ⟨rfl, hlooks.carried⟩⟩
  · intro problem calls after hafter
    exact .inl ⟨hafter.2.1, hafter.2.2.1⟩

/-- What the work of a request ensures of its calls and of the files holds of the request. -/
theorem files_run {request : Request} {post : List Call → FileSystem → Prop}
    (h : Work.Ensures (request.command.run request.options
      (Colour.ofSetting request.options.colour host.environment)) host before
      fun _ calls after => post calls after.files) :
    post ((request.run host before).workspace.callsSince before)
      (request.run host before).workspace.files := by
  obtain ⟨calls, hcalls, hpost⟩ := h
  rw [(run_eq request host before).1, Workspace.callsSince_eq hcalls]
  exact hpost

/-- Whatever the manifest, the settings, the files and git are: a command that asks about a working
copy asks git about that one and does nothing else; listing what is declared and a download to a
place that is taken do nothing; an update asks for the changes of a working copy that is there, and
does nothing else where there are some or git does not say; and a command whose repository cannot be
got ready does nothing. -/
theorem queries_confined {arguments : List String} {host : Host} {workspace : Workspace}
    {request : Request} (hread : Request.read arguments host.environment = .ok request) :
    let ended := run arguments host workspace
    let calls := ended.workspace.callsSince workspace
    let isIdle := calls = [] ∧ ended.workspace.files = workspace.files
    (∀ target, request.command.asked? = some target →
      LooksAt target.place workspace.files calls ended.workspace.files) ∧
    (∀ usedOnly, request.command = .list usedOnly → isIdle) ∧
    (∀ target reference, request.command = .download target reference →
      workspace.files.leadsAnywhere target.place = true → isIdle) ∧
    (∀ target reference, request.command = .update target reference →
      workspace.files.leadsAnywhere target.place = true →
      GuardsChanges target.place workspace.files calls ended.workspace.files) ∧
    ∀ target problem, request.command.target? = some target →
      ((Work.repository request.options target.repository).outcome host workspace).1 =
        .error problem → isIdle := by
  intro ended calls isIdle
  have hended {post : List Call → FileSystem → Prop}
      (h : Work.Ensures (request.command.run request.options
        (Colour.ofSetting request.options.colour host.environment)) host workspace
        fun _ calls after => post calls after.files) : post calls ended.workspace.files := by
    have hrun : ended = request.run host workspace := by simp only [ended, run, hread]
    simp only [calls, hrun]
    exact files_run h
  refine ⟨?_, ?_, ?_, ?_, ?_⟩
  · intro target hasked
    exact hended (looks_run hasked workspace)
  · intro usedOnly hcommand
    refine @hended (fun calls files => calls = [] ∧ files = workspace.files) ?_
    rw [hcommand]
    exact ensures_run_list usedOnly
  · intro target reference hcommand hexists
    refine @hended (fun calls files => calls = [] ∧ files = workspace.files) ?_
    rw [hcommand]
    exact ensures_runDownload_of_exists hexists
  · intro target reference hcommand hexists
    refine hended ?_
    rw [hcommand]
    exact ensures_runUpdate_of_exists hexists
  · intro target problem htarget hproblem
    exact @hended (fun calls files => calls = [] ∧ files = workspace.files)
      (ensures_run_of_unloaded htarget hproblem)

/-- For the hash of a branch git is asked about the working copy alone; and an update of a copy with
a changed file stops there, though git would lose all files on any command that does not ask. -/
theorem queries_confined_of_changed_file :
    let workspace : Workspace := { files := { entries :=
      [(["m.yml"], .file (Text.encode "repository.w: \x7btype: local\x7d\n")),
        (["repos"], .folder), (["repos", "w"], .folder)] } }
    let git : Git := fun _ files request =>
      match request.arguments with
      | "diff" :: _ => .ok ({ output := Text.encode "a.txt\n" }, files)
      | "rev-parse" :: _ => .ok ({ output := Text.encode "c0\n" }, files)
      | "merge-base" :: _ | "show-ref" :: _ => .ok ({}, files)
      | _ => .ok ({}, {})
    let host : Host := ⟨some git, ⟨[]⟩⟩
    let options : Options := ⟨⟨"m.yml"⟩, none, "auto", some .info, false, false⟩
    let target : Target := ⟨"w", none⟩
    let asking := run ["--manifest", "m.yml", "hash", "w", "main"] host workspace
    let updating := run ["--manifest", "m.yml", "update", "w", "main"] host workspace
    let calls (ended : Outcome) : List Call := ended.workspace.callsSince workspace
    Request.read ["--manifest", "m.yml", "hash", "w", "main"] ⟨[]⟩ =
        .ok ⟨options, .hash target "main"⟩ ∧
      asking.output = "c0\n" ∧ (calls asking).length = 3 ∧
      LooksAt target.place workspace.files (calls asking) asking.workspace.files ∧
      Request.read ["--manifest", "m.yml", "update", "w", "main"] ⟨[]⟩ =
        .ok ⟨options, .update target "main"⟩ ∧
      workspace.files.leadsAnywhere target.place = true ∧
      (calls updating).length = 1 ∧ updating.workspace.files = workspace.files ∧
      GuardsChanges target.place workspace.files (calls updating) updating.workspace.files := by
  intro workspace git host options target asking updating calls
  have hasking : Request.read ["--manifest", "m.yml", "hash", "w", "main"] ⟨[]⟩ =
    .ok ⟨options, .hash target "main"⟩ := rfl
  have hupdating : Request.read ["--manifest", "m.yml", "update", "w", "main"] ⟨[]⟩ =
    .ok ⟨options, .update target "main"⟩ := rfl
  have hexists : workspace.files.leadsAnywhere target.place = true := by decide +kernel
  have hlooks := (@queries_confined _ host workspace _ hasking).1 target rfl
  have hguards := (@queries_confined _ host workspace _ hupdating).2.2.2.1 target "main" rfl hexists
  have hasked : (asking.output, (calls asking).length) = ("c0\n", 3) := by decide +kernel
  have hstopped : ((calls updating).length, updating.workspace.files) = (1, workspace.files) := by
    decide +kernel
  exact ⟨hasking, congrArg Prod.fst hasked, congrArg Prod.snd hasked, hlooks, hupdating, hexists,
    congrArg Prod.fst hstopped, congrArg Prod.snd hstopped, hguards⟩

end CommandLine

end WorkingCopies
