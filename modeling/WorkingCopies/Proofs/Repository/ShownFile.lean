import WorkingCopies.Proofs.FileSystem.Written
import WorkingCopies.Proofs.Repository.Episode
import WorkingCopies.Proofs.Repository.FetchedFile
import WorkingCopies.Proofs.Repository.FetchFirst

/-!
# What a fetched file holds

Over a network a file is shown by git at the chosen reference, and what git wrote is put where the
folder joined with the name of the file leads. That is the last thing that is done: whatever goes
wrong before, no file has been touched but by git.
-/

namespace WorkingCopies

open FileSystem (Location MakesFolders Written createFolders writeFile)
open Git (Call Command Reply)
open Reference (Kind classify madeOf_classify qualifiedName qualify)

variable {host : Host} {before between : Workspace} {workingCopy folder target : Path}
  {reference file : String} {result : Except Failure Unit} {calls more : List Call}
  {after : FileSystem} {output : Bytes}

namespace FileSystem.CarriedBy

variable {files : FileSystem} {opened : FileSystem}

/-- Folders are made between the calls of two lists if they are between the calls of both. -/
theorem append_folders (h : files.CarriedBy MakesFolders calls opened)
    (hmore : opened.CarriedBy MakesFolders more after) :
    files.CarriedBy MakesFolders (calls ++ more) after :=
  h.append (fun _ _ _ => Grows.trans) hmore

/-- Folders that are made in the end are made behind the last call. -/
theorem trans_folders (h : files.CarriedBy MakesFolders calls opened)
    (hmore : MakesFolders opened after) : files.CarriedBy MakesFolders calls after := by
  have hlast : opened.CarriedBy MakesFolders [] after := hmore
  have hall := h.append_folders hlast
  rwa [List.append_nil] at hall

end FileSystem.CarriedBy

/-- Whether the last of some calls showed a file of a working copy at a reference. What the reference
names was asked right before, and git was given the reference as one of that kind. -/
inductive Shows (host : Host) (workingCopy : Path) (reference file : String) (before : Workspace) :
    List Call → Bytes → Prop where
  | intro {asked answered : Workspace} {earlier probes : List Call} {kind : Kind} {shown : Call}
      {location : Location} {reply : Reply}
      (earlier_calls : asked.calls = earlier.reverse ++ before.calls)
      (classified : (classify workingCopy reference).carryOut host asked = (.ok kind, answered))
      (probes_calls : answered.calls = probes.reverse ++ asked.calls)
      (found : shown.before = answered.files)
      (folder : shown.folder = some workingCopy)
      (arguments : shown.arguments = ["show", qualify reference kind ++ ":" ++ file])
      (outcome : shown.outcome = .finished location reply) (success : reply.status = 0) :
      Shows host workingCopy reference file before (earlier ++ probes ++ [shown]) reply.output

/-- More calls may be made before. -/
theorem Shows.behind (h : Shows host workingCopy reference file between more output)
    (hcalls : between.calls = calls.reverse ++ before.calls) :
    Shows host workingCopy reference file before (calls ++ more) output := by
  obtain ⟨hearlier, hclassified, hprobes, hfound, hfolder, harguments, houtcome, hsuccess⟩ := h
  rw [List.append_assoc, ← List.append_assoc calls, ← List.append_assoc]
  apply Shows.intro _ hclassified hprobes hfound hfolder harguments houtcome hsuccess
  rw [hearlier, hcalls, List.reverse_append, List.append_assoc]

/-- What comes of showing a file. After a failure nothing but folders has been made between the calls
of git; after a success the file has been written as well, with what the last call showed. -/
def ShowsInto (host : Host) (workingCopy : Path) (reference file : String) (target : Path)
    (before : Workspace) (result : Except Failure Unit) (calls : List Call) (after : FileSystem) :
    Prop :=
  match result with
  | .error _ => before.files.CarriedBy MakesFolders calls after
  | .ok _ => ∃ output opened, Shows host workingCopy reference file before calls output ∧
      before.files.CarriedBy MakesFolders calls opened ∧ Written target output opened after

/-- What is shown behind calls between which nothing but folders was made is shown by the whole. -/
theorem ShowsInto.behind (hcalls : between.calls = calls.reverse ++ before.calls)
    (hcarried : before.files.CarriedBy MakesFolders calls between.files)
    (h : ShowsInto host workingCopy reference file target between result more after) :
    ShowsInto host workingCopy reference file target before result (calls ++ more) after := by
  cases result with
  | error failure => exact hcarried.append_folders h
  | ok _ =>
    obtain ⟨output, opened, hshows, hopened, hwritten⟩ := h
    exact ⟨output, opened, hshows.behind hcalls, hcarried.append_folders hopened, hwritten⟩

/-- An operation between whose calls nothing but folders is made can come before. -/
theorem Ensures.bind_showsInto {α : Type} {operation : Operation α} {next : α → Operation Unit}
    (first : Ensures operation host before fun _ calls between =>
      before.files.CarriedBy MakesFolders calls between.files)
    (rest : ∀ value between, Ensures (next value) host between fun result calls after =>
      ShowsInto host workingCopy reference file target between result calls after.files) :
    Ensures (operation >>= next) host before fun result calls after =>
      ShowsInto host workingCopy reference file target before result calls after.files := by
  apply Ensures.bind first.with_calls
  · intro value calls between hfirst
    obtain ⟨hcalls, hcarried⟩ := hfirst
    exact (rest value between).mono fun _ _ _ hrest => hrest.behind hcalls hcarried
  · intro failure calls after hfirst
    exact hfirst.2

namespace WorkingCopy

/-- What comes of writing a file for which folders are made first. -/
def WritesBehindFolders (target : Path) (contents : Bytes) (files : FileSystem)
    (result : Except Failure Unit) (after : FileSystem) : Prop :=
  match result with
  | .error _ => MakesFolders files after
  | .ok _ => ∃ opened, MakesFolders files opened ∧ Written target contents opened after

/-- Writing a file calls nobody. -/
theorem ensures_write {contents : Bytes} {files : FileSystem}
    (hfolders : MakesFolders files between.files) :
    Ensures (Operation.edit (writeFile target contents)) host between fun result calls after =>
      calls = [] ∧ WritesBehindFolders target contents files result after.files := by
  apply Ensures.edit
  refine ⟨rfl, ?_⟩
  have hwritten := @FileSystem.ensures_writeFile between.files target contents
  unfold FileSystem.Edit.Ensures FileSystem.Edit.outcome at hwritten
  cases hresult : ((writeFile target contents).run.run between.files).1 with
  | ok _ =>
    rw [hresult] at hwritten
    exact ⟨between.files, hfolders, hwritten⟩
  | error fault =>
    rw [hresult] at hwritten
    dsimp only at hwritten ⊢
    rw [hwritten]
    exact hfolders

/-- Making the folder for a file and then writing the file calls nobody either. -/
theorem ensures_createParent_write (target : Path) (contents : Bytes) (between : Workspace) :
    Ensures (do
      if let some parent := target.parent? then Operation.edit (createFolders parent)
      Operation.edit (writeFile target contents)) host between fun result calls after =>
        calls = [] ∧ WritesBehindFolders target contents between.files result after.files := by
  split
  · next parent hparent =>
    have hfolders : Ensures (Operation.edit (createFolders parent)) host between
        fun _ calls after => calls = [] ∧ MakesFolders between.files after.files :=
      Ensures.edit ⟨rfl, FileSystem.ensures_createFolders parent⟩
    apply Ensures.bind hfolders
    · intro _ calls after hafter
      obtain ⟨rfl, hmade⟩ := hafter
      exact ensures_write hmade
    · intro failure calls after hafter
      exact hafter
  · exact ensures_write (.refl between.files)

/-- A reference is spelled by its kind, which git is asked for; no more is done than that. -/
theorem ensures_qualifiedName (asked : Workspace) :
    Ensures (qualifiedName workingCopy reference) host asked fun result calls answered =>
      answered.calls = calls.reverse ++ asked.calls ∧
        asked.files.CarriedBy MakesFolders calls answered.files ∧
        ∀ name, result = .ok name → ∃ kind, name = qualify reference kind ∧
          (classify workingCopy reference).carryOut host asked = (.ok kind, answered) := by
  have hclassify : Ensures (classify workingCopy reference) host asked fun result calls answered =>
      (classify workingCopy reference).carryOut host asked = (result, answered) ∧
        answered.calls = calls.reverse ++ asked.calls ∧
        asked.files.CarriedBy MakesFolders calls answered.files := by
    obtain ⟨calls, hcalls, hcarried⟩ := (madeOf_classify reference).ensures_carried host asked
    exact ⟨calls, hcalls, rfl, hcalls, hcarried.carriedBy .refl⟩
  apply Ensures.bind hclassify
  · intro kind calls answered hanswered
    obtain ⟨hclassified, hcalls, hcarried⟩ := hanswered
    apply Ensures.pure
    rw [List.append_nil]
    refine ⟨hcalls, hcarried, fun name hname => ?_⟩
    cases hname
    exact ⟨kind, rfl, hclassified⟩
  · intro failure calls answered hanswered
    exact ⟨hanswered.2.1, hanswered.2.2, nofun⟩

/-- The command that shows a file is one call, which its output is read off. -/
theorem ensures_execute_show (name : String) (answered : Workspace) :
    Ensures (Git.execute workingCopy ["show", name ++ ":" ++ file]) host answered
      fun result calls after => answered.files.CarriedBy MakesFolders calls after.files ∧
        ∀ output, result = .ok output → ∃ shown location reply, calls = [shown] ∧
          shown.before = answered.files ∧ shown.folder = some workingCopy ∧
          shown.arguments = ["show", name ++ ":" ++ file] ∧
          shown.outcome = .finished location reply ∧ reply.status = 0 ∧ reply.output = output := by
  apply ensures_run
  · intro _
    exact ⟨.refl answered.files, nofun⟩
  · intro git _ call hcall
    subst hcall
    have hbefore := Command.before_callBy
      ((Command.plain ["show", name ++ ":" ++ file]).within workingCopy) git answered
    have hruns := ((Command.plain ["show", name ++ ":" ++ file]).within workingCopy).callBy_runs git
      answered
    constructor
    · refine ⟨?_, .refl _⟩
      rw [hbefore]
      exact .refl _
    · intro output houtput
      obtain ⟨location, reply, houtcome, hsuccess, hreply⟩ := Command.of_conclude_eq_ok houtput
      have harguments := hruns.arguments
      rw [Command.map_text_plain_within] at harguments
      exact ⟨_, location, reply, rfl, hbefore, hruns.folder, harguments, houtcome, hsuccess, hreply⟩

/-- Showing a file asks git what the reference names and then for the file, and writes it last. -/
theorem ensures_showFile_showsInto (before : Workspace) :
    Ensures (showFile workingCopy reference file folder) host before fun result calls after =>
      ShowsInto host workingCopy reference file (folder.join ⟨file⟩) before result calls
        after.files := by
  apply Ensures.bind_showsInto (Ensures.edit (FileSystem.ensures_createFolders folder))
  intro _ asked
  apply Ensures.bind (ensures_qualifiedName asked)
  · intro name probes answered hanswered
    obtain ⟨hprobes, hasked, hname⟩ := hanswered
    obtain ⟨kind, rfl, hclassified⟩ := hname name rfl
    refine Ensures.step (Operation.carryOut_report _ _ _ _ _) rfl ?_
    apply Ensures.bind (ensures_execute_show (qualify reference kind) _)
    · intro output calls between hbetween
      obtain ⟨hcalls, hshown⟩ := hbetween
      obtain ⟨shown, location, reply, rfl, hfound, hfolder, harguments, houtcome, hsuccess, rfl⟩ :=
        hshown output rfl
      have hshows : Shows host workingCopy reference file asked (probes ++ [shown]) reply.output :=
        @Shows.intro host workingCopy reference file asked asked answered [] _ _ _ _ _ rfl
          hclassified hprobes hfound hfolder harguments houtcome hsuccess
      have hcarried : asked.files.CarriedBy MakesFolders (probes ++ [shown]) between.files :=
        hasked.append_folders hcalls
      apply (ensures_createParent_write _ reply.output between).mono
      intro result none after hwritten
      obtain ⟨rfl, hwritten⟩ := hwritten
      rw [List.append_nil]
      cases result with
      | error failure => exact hcarried.trans_folders hwritten
      | ok _ =>
        obtain ⟨opened, hopened, hwritten⟩ := hwritten
        exact ⟨reply.output, opened, hshows, hcarried.trans_folders hopened, hwritten⟩
    · intro failure calls after hafter
      exact hasked.append_folders hafter.1
  · intro failure calls after hafter
    exact hafter.2.1

end WorkingCopy

namespace Repository

open Request (chosenBehind)

variable {repository : Repository}

/-- Fetching a file over a network shows it at the chosen reference. -/
theorem ensures_fetchFile_showsInto (hnetwork : repository.source.isNetwork = true)
    (before : Workspace) :
    Ensures (fetchFile workingCopy file folder) host (repository, before) fun result calls after =>
      ShowsInto host workingCopy repository.commit file (folder.join ⟨file⟩) before result calls
        after.2.files := by
  have hfetch : Ensures (fetch workingCopy) host (repository, before) fun _ calls between =>
      between.1.commit = repository.commit ∧
        before.files.CarriedBy MakesFolders calls between.2.files := by
    have hcommit : Keeps Repository.commit (fetch workingCopy) :=
      keeps_fetch workingCopy fun _ _ => rfl
    obtain ⟨calls, hcalls, hcarried⟩ :=
      @ensures_fetch_carried host repository workingCopy before
    exact ⟨calls, hcalls, hcommit host (repository, before), hcarried.carriedBy .refl⟩
  have hshow : Ensures (fetch workingCopy >>= fun _ => get >>= fun state =>
      Task.ofOperation (WorkingCopy.showFile workingCopy state.1.commit file folder)) host
      (repository, before) fun result calls after =>
        ShowsInto host workingCopy repository.commit file (folder.join ⟨file⟩) before result calls
          after.2.files := by
    apply Ensures.bind hfetch.with_calls
    · intro _ calls between hbetween
      obtain ⟨hcalls, hcommit, hcarried⟩ := hbetween
      apply Ensures.step rfl rfl
      apply Ensures.ofOperation
      rw [hcommit]
      apply (WorkingCopy.ensures_showFile_showsInto between.2).mono
      intro result more after hshows
      exact hshows.behind hcalls hcarried
    · intro failure calls after hafter
      exact hafter.2.2
  apply Ensures.step rfl rfl
  dsimp only
  cases hsource : repository.source with
  | folder path =>
    rw [hsource] at hnetwork
    cases hnetwork
  | hosted hosted => exact hshow
  | remote url => exact hshow

/-- Whether a request, if it is one for a file, showed the file at the chosen reference. -/
def Episode.ShowsFile (host : Host) (episode : Episode) : Prop :=
  ∀ workingCopy file folder, episode.request = .fetchFile workingCopy file folder →
    ShowsInto host workingCopy episode.start.1.commit file (folder.join ⟨file⟩) episode.start.2
      (episode.answer.map fun _ => ()) episode.calls (episode.finish host).2.files

/-- Each request of a run for a file over a network shows it. -/
theorem showsFile_of_mem_episodes {start : Repository × Workspace} {requests : List Request}
    (hnetwork : start.1.source.isNetwork = true) :
    ∀ episode ∈ episodes host start requests, episode.ShowsFile host := by
  refine forall_mem_episodes (fun state => state.1.source.isNetwork = true) hnetwork ?_
  intro request _ state hstate
  have hserve : Ensures request.serve host state fun answer calls after =>
      ∀ workingCopy file folder, request = .fetchFile workingCopy file folder →
        ShowsInto host workingCopy state.1.commit file (folder.join ⟨file⟩) state.2
          (answer.map fun _ => ()) calls after.2.files := by
    cases request with
    | fetchFile workingCopy file folder =>
      apply Ensures.bind (ensures_fetchFile_showsInto hstate state.2)
      · intro _ calls after hafter
        apply Ensures.pure
        rw [List.append_nil]
        rintro _ _ _ ⟨⟩
        exact hafter
      · rintro failure calls after hafter _ _ _ ⟨⟩
        exact hafter
    | _ => exact (Request.makes_serve _ host state).mono fun _ _ _ _ => nofun
  obtain ⟨calls, hcalls, hshows⟩ := hserve
  have hkept : (Action.outcome request.serve host state).2.1.source.isNetwork = true := by
    rw [request.keepsSource_serve host state]
    exact hstate
  exact ⟨calls, hcalls, hkept, hshows⟩

end Repository

end WorkingCopies
