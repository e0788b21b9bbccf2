import WorkingCopies.Proofs.Commands
import WorkingCopies.Proofs.Origin.Commands
import WorkingCopies.Proofs.Repository.Fetch
import WorkingCopies.Repository.Request

/-!
# The commands of each request

A request to a repository runs commands out of a fixed list, whatever the repository is and whatever
git answers. All of them are run in the working copy that the request names, but for the one that
makes the working copy.
-/

namespace WorkingCopies

open Git (Call)
open Origin (madeOf_runAuthenticated makes_repair makes_restoringAfter
  names_of_arguments_eq_setUrl)

variable {workingCopy : Path}

namespace WorkingCopy

/-- Cloning runs one command, in no folder of its own. -/
theorem makes_clone (url shown branch : String) (target : Path) :
    Makes (clone url shown branch target) fun call =>
      call.folder = none ∧ call.arguments = ["clone", "-b", branch, url, target.text] := by
  have hclone : Makes (discard (cloneCommand url shown branch target).run) fun call =>
      call.folder = none ∧ call.arguments = ["clone", "-b", branch, url, target.text] :=
    Makes.discard (Makes.run fun _ hruns => ⟨hruns.folder, hruns.arguments⟩)
  unfold clone
  split
  · exact Makes.bind Makes.edit fun _ => hclone
  · exact hclone

/-- Removing a working copy runs no command. -/
theorem makes_remove {property : Call → Prop} : Makes (remove workingCopy) property := by
  refine Makes.bind (Makes.attempt Makes.edit) fun result => ?_
  split
  · exact Makes.pure
  · split
    · exact Makes.pure
    · exact Makes.throw
  · exact Makes.throw

end WorkingCopy

open WorkingCopy (makes_clone makes_hasChanges makes_hashOf makes_namesOf makes_remove
  makes_showFile showFile)
open Reference (makes_classify probeCommands)

namespace Repository

/-- The commands that bring in what the remote has. -/
def fetchCommands : List String := ["remote", "fetch"]

/-- Fetching is made of the fetch itself and the commands that set the URL of the origin. -/
theorem madeOf_fetchFrom (source : Source) :
    MadeOf (fun command => command.Names workingCopy fetchCommands)
      (fetchFrom workingCopy source) := by
  cases source with
  | hosted hosted =>
    refine .bind (.report _ _ _) fun _ => .bind .environment fun _ => .discard ?_
    exact madeOf_runAuthenticated _ _ (by decide) (by decide)
  | remote url => exact .bind (.report _ _ _) fun _ => .discard (.execute (by decide))
  | folder path => exact .pure _

/-- Fetching runs these commands. -/
theorem makes_fetchFrom (source : Source) :
    Makes (fetchFrom workingCopy source) fun call => call.Names workingCopy fetchCommands :=
  (madeOf_fetchFrom source).makes_names

/-- A fetch under the latch runs the same commands, or none. -/
theorem makes_fetch :
    Makes (fetch workingCopy) fun call => call.Names workingCopy fetchCommands := by
  intro host state
  obtain ⟨repository, workspace⟩ := state
  cases hclosed : repository.fetched.isClosed with
  | true => exact ensures_fetch_of_closed hclosed (by simp)
  | false => exact ensures_fetch_of_open hclosed (makes_fetchFrom repository.source host workspace)

/-- Copying a folder leaves the checkout alone to git. -/
theorem makes_downloadFrom_folder (reference : String) (target path : Path) :
    Makes (downloadFrom reference target (.folder path)) fun call =>
      call.Names target checkoutCommands :=
  Makes.bind Makes.report fun _ => Makes.bind Makes.edit fun _ => makes_checkout reference

/-- Making a working copy runs a clone, a checkout and the command that sets the URL. -/
theorem makes_downloadFrom (reference : String) (target : Path) (source : Source) :
    Makes (downloadFrom reference target source) fun call =>
      ∃ name ∈ "clone" :: "remote" :: checkoutCommands, call.arguments.head? = some name := by
  have hcheckout : Makes (checkout target reference) fun call =>
      call.Names target ("remote" :: checkoutCommands) :=
    (makes_checkout reference).widen (by simp)
  have hnamed {call : Call} (h : call.Names target ("remote" :: checkoutCommands)) :
      ∃ name ∈ "clone" :: "remote" :: checkoutCommands, call.arguments.head? = some name := by
    obtain ⟨-, name, hname, hhead⟩ := h
    exact ⟨name, List.mem_cons_of_mem _ hname, hhead⟩
  have hclone (url shown : String) : Makes (WorkingCopy.clone url shown primaryBranch target)
      fun call =>
        ∃ name ∈ "clone" :: "remote" :: checkoutCommands, call.arguments.head? = some name :=
    (makes_clone url shown primaryBranch target).mono fun call h =>
      ⟨"clone", List.mem_cons_self, by rw [h.2]; rfl⟩
  cases source with
  | hosted hosted =>
    refine Makes.bind (Makes.silent fun _ _ => rfl) fun _ => Makes.bind Makes.report fun _ => ?_
    refine Makes.bind (hclone _ _) fun _ => ?_
    exact (makes_restoringAfter _ _ (fun _ => names_of_arguments_eq_setUrl (by simp))
      hcheckout).mono fun _ => hnamed
  | remote url =>
    refine Makes.bind Makes.report fun _ => Makes.bind (hclone _ _) fun _ => ?_
    exact hcheckout.mono fun _ => hnamed
  | folder path =>
    refine (makes_downloadFrom_folder reference target path).mono ?_
    intro call hnames
    obtain ⟨-, name, hname, hhead⟩ := hnames
    exact ⟨name, by simp [hname], hhead⟩

/-- Setting the origin right asks for its URL and may set it. -/
theorem makes_repairOrigin (source : Source) :
    Makes (repairOrigin workingCopy source) fun call =>
      call.Names workingCopy ["config", "remote"] := by
  have hrepair (expected password : String) :
      Makes (Origin.repair workingCopy expected password) fun call =>
        call.Names workingCopy ["config", "remote"] := by
    refine (makes_repair expected password).mono ?_
    intro call hcall
    rcases hcall with ⟨hfolder, harguments | harguments⟩
    · exact ⟨hfolder, "config", by simp, by rw [harguments]; rfl⟩
    · exact names_of_arguments_eq_setUrl (by simp) ⟨hfolder, harguments⟩
  cases source with
  | hosted hosted =>
    exact Makes.bind (Makes.silent fun _ _ => rfl) fun _ => Makes.discard (hrepair _ _)
  | remote url => exact Makes.discard (hrepair _ _)
  | folder path => exact Makes.pure

namespace Request

/-- The commands that a request may run. -/
def commands : Request → List String
  | .commit | .setCommit _ => []
  | .fetchFile .. => "show" :: fetchCommands ++ probeCommands
  | .download .. => "clone" :: "remote" :: checkoutCommands
  | .update .. => fetchCommands ++ mergeCommands
  | .repairOrigin _ => ["config", "remote"]
  | .hashOf .. => "rev-parse" :: probeCommands
  | .namesOf .. => "for-each-ref" :: "rev-parse" :: probeCommands
  | .kindOf .. => probeCommands
  | .hasChanges _ => ["diff"]

/-- A request runs its commands alone. -/
theorem makes_serve (request : Request) :
    Makes request.serve fun call =>
      ∃ name ∈ request.commands, call.arguments.head? = some name := by
  have hsource {α : Type} {next : Source → Task α} {property : Call → Prop}
      (h : ∀ source, Makes (next source) property) : Makes (Task.source >>= next) property :=
    Makes.bind (Makes.silent fun _ _ => rfl) h
  cases request with
  | commit => exact Makes.silent fun _ _ => rfl
  | setCommit reference => exact Makes.silent fun _ _ => rfl
  | fetchFile workingCopy file folder =>
    have hnetwork : Makes (fetch workingCopy >>= fun _ => get >>= fun state =>
        Task.ofOperation (showFile workingCopy state.1.commit file folder)) fun call =>
          ∃ name ∈ commands (.fetchFile workingCopy file folder),
            call.arguments.head? = some name := by
      refine Makes.bind ((makes_fetch.widen (by simp [commands])).mono fun _ => And.right)
        fun _ => ?_
      refine Makes.bind (Makes.silent fun _ _ => rfl) fun state => Makes.ofOperation ?_
      exact ((makes_showFile _ _ _).widen (by simp [commands])).mono fun _ => And.right
    refine Makes.bind (hsource fun source => ?_) fun _ => Makes.pure
    cases source with
    | folder path => exact Makes.ofOperation (Makes.bind Makes.report fun _ => Makes.edit)
    | hosted hosted => exact hnetwork
    | remote url => exact hnetwork
  | download reference target =>
    refine Makes.bind (hsource fun source => ?_) fun _ => Makes.pure
    exact Makes.ofOperation (makes_downloadFrom reference target source)
  | update workingCopy reference =>
    have hnetwork : Makes (fetch workingCopy >>= fun _ =>
        Task.ofOperation (checkoutAndMerge workingCopy reference) >>= fun _ =>
          Task.ofOperation (checkout workingCopy reference)) fun call =>
          ∃ name ∈ commands (.update workingCopy reference),
            call.arguments.head? = some name := by
      refine Makes.bind ((makes_fetch.widen (by simp [commands])).mono fun _ => And.right)
        fun _ => ?_
      refine Makes.bind (Makes.ofOperation ?_) fun _ => Makes.ofOperation ?_
      · exact ((makes_checkoutAndMerge reference).widen (by simp [commands])).mono
          fun _ => And.right
      · exact ((makes_checkout reference).widen (by simp [commands, mergeCommands])).mono
          fun _ => And.right
    refine Makes.bind (hsource fun source => ?_) fun _ => Makes.pure
    cases source with
    | folder path =>
      refine Makes.bind (Makes.ofOperation makes_remove) fun _ => Makes.ofOperation ?_
      exact ((makes_downloadFrom_folder reference workingCopy path).widen
        (by simp [commands, mergeCommands])).mono fun _ => And.right
    | hosted hosted => exact hnetwork
    | remote url => exact hnetwork
  | repairOrigin workingCopy =>
    refine hsource fun source => Makes.bind (Makes.ofOperation ?_) fun _ => Makes.pure
    exact (makes_repairOrigin source).mono fun _ => And.right
  | hashOf workingCopy reference =>
    refine Makes.bind (Makes.ofOperation ?_) fun _ => Makes.pure
    exact (makes_hashOf reference).mono fun _ => And.right
  | namesOf workingCopy reference =>
    refine Makes.bind (Makes.ofOperation ?_) fun _ => Makes.pure
    exact (makes_namesOf reference).mono fun _ => And.right
  | kindOf workingCopy reference =>
    refine Makes.bind (Makes.ofOperation ?_) fun _ => Makes.pure
    exact (makes_classify reference).mono fun _ => And.right
  | hasChanges workingCopy =>
    refine Makes.bind (Makes.ofOperation ?_) fun _ => Makes.pure
    exact makes_hasChanges.mono fun _ => And.right

end Request

end Repository

end WorkingCopies
