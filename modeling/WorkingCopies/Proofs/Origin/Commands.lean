import WorkingCopies.Proofs.Git.MadeOf
import WorkingCopies.Proofs.Git.Surface
import WorkingCopies.Proofs.Origin.Guard

/-!
# The commands that set the origin

Everything that is done to the origin runs one command that sets its URL, and for setting it right
one more that asks for it.
-/

namespace WorkingCopies

open Git (Call)

variable {workingCopy : Path}

namespace Origin

/-- The arguments that ask for the URL of the remote. -/
def urlArguments : List String := ["config", "--get", "remote." ++ Reference.remoteName ++ ".url"]

/-- Setting a URL is made of the command that sets it. -/
theorem madeOf_setUrl (url password : String) :
    MadeOf (fun command => command.folder = some workingCopy ∧
      command.arguments.map (·.text) = setUrlArguments url) (setUrl workingCopy url password) :=
  .discard (.run ⟨rfl, rfl⟩)

/-- Setting a URL runs the command that sets it. -/
theorem makes_setUrl (url password : String) :
    Makes (setUrl workingCopy url password) fun call =>
      call.folder = some workingCopy ∧ call.arguments = setUrlArguments url := by
  refine (madeOf_setUrl url password).makes.mono fun call hcall => ?_
  obtain ⟨command, ⟨hfolder, harguments⟩, hruns⟩ := hcall
  exact ⟨hruns.folder.trans hfolder, hruns.arguments.trans harguments⟩

/-- Setting a URL names one command. -/
theorem names_of_arguments_eq_setUrl {call : Call} {names : List String} {url : String}
    (hremote : "remote" ∈ names)
    (h : call.folder = some workingCopy ∧ call.arguments = setUrlArguments url) :
    call.Names workingCopy names :=
  ⟨h.1, "remote", hremote, by rw [h.2]; rfl⟩

/-- Putting the visible URL back runs the command that sets it, and never fails. -/
theorem ensures_restore_ok (urls : RemoteUrls) (password : String) (host : Host)
    (before : Workspace) :
    Ensures (restore workingCopy urls password) host before fun result calls _ =>
      result = .ok () ∧ ∀ call ∈ calls,
        call.folder = some workingCopy ∧ call.arguments = setUrlArguments urls.visible := by
  unfold restore
  split
  · refine Ensures.bind_attempt (makes_setUrl _ _ host before) ?_
    intro result calls after hcalls
    cases result with
    | ok _ => exact Ensures.pure ⟨rfl, by rwa [List.append_nil]⟩
    | error failure => exact Ensures.report ⟨rfl, by rwa [List.append_nil]⟩
  · exact Ensures.pure ⟨rfl, by simp⟩

/-- Putting the visible URL back behind an operation adds the command that sets it. -/
theorem makes_restoringAfter {α : Type} {operation : Operation α} {property : Call → Prop}
    (urls : RemoteUrls) (password : String)
    (hrestore : ∀ call : Call, call.folder = some workingCopy ∧
      call.arguments = setUrlArguments urls.visible → property call)
    (h : Makes operation property) :
    Makes (restoringAfter workingCopy urls password operation) property := by
  refine Makes.bind (Makes.attempt h) fun result => ?_
  refine Makes.bind (fun host before => ?_) fun _ => Makes.ofExcept
  refine (ensures_restore_ok urls password host before).mono fun _ _ _ hcalls call hcall => ?_
  exact hrestore call (hcalls.2 call hcall)

/-- Putting the visible URL back hides no failure of what stands before it. -/
theorem surfaces_restoringAfter {α : Type} {operation : Operation α} {names : List String}
    (urls : RemoteUrls) (password : String) (hremote : "remote" ∉ names)
    (h : Surfaces names operation) :
    Surfaces names (restoringAfter workingCopy urls password operation) := by
  intro host before
  refine Ensures.bind_attempt (h host before) ?_
  intro result inner between hinner
  refine Ensures.bind (ensures_restore_ok urls password host between) ?_ ?_
  · intro _ calls after hrestored
    obtain ⟨-, hcalls⟩ := hrestored
    refine Ensures.ofExcept fun call hcall hnamed => ?_
    rw [List.append_nil] at hcall
    rcases List.mem_append.mp hcall with hcall | hcall
    · exact hinner call hcall hnamed
    · obtain ⟨name, hname, hhead⟩ := hnamed
      rw [(hcalls call hcall).2] at hhead
      cases hhead
      exact absurd hname hremote
  · intro failure calls after hrestored
    obtain ⟨⟨⟩, -⟩ := hrestored

/-- Putting the visible URL back is made of the command that sets it. -/
theorem madeOf_restore (urls : RemoteUrls) (password : String) :
    MadeOf (fun command => command.folder = some workingCopy ∧
      command.arguments.map (·.text) = setUrlArguments urls.visible)
      (restore workingCopy urls password) := by
  unfold restore
  split
  · refine .bind (.attempt (madeOf_setUrl _ _)) fun result => ?_
    cases result with
    | ok _ => exact .pure _
    | error failure => exact .report _ _ _
  · exact .pure _

/-- A command that needs the login is made of it and of the commands that set the URL. -/
theorem madeOf_runAuthenticated_of {allowed : Git.Command → Prop} {urls : RemoteUrls}
    {password : String} {command : Git.Command}
    (hset : ∀ url, ∀ set : Git.Command, set.folder = some workingCopy ∧
      set.arguments.map (·.text) = setUrlArguments url → allowed set)
    (hcommand : allowed (command.within workingCopy)) :
    MadeOf allowed (runAuthenticated workingCopy urls password command) := by
  have hrun : MadeOf allowed
      (restoringAfter workingCopy urls password (command.within workingCopy).run) := by
    refine .bind (.attempt (.run hcommand)) fun _ => ?_
    exact .bind ((madeOf_restore urls password).mono (hset _)) fun _ => .ofExcept
  refine .ite (fun _ => ?_) fun _ => hrun
  exact .bind ((madeOf_setUrl _ _).mono (hset _)) fun _ => hrun

/-- The words that they start with are those of the command and of setting the URL. -/
theorem madeOf_runAuthenticated {names : List String} (urls : RemoteUrls) (password : String)
    {name : String} {arguments : List String} (hname : name ∈ names) (hremote : "remote" ∈ names) :
    MadeOf (fun command => command.Names workingCopy names)
      (runAuthenticated workingCopy urls password (.plain (name :: arguments))) := by
  refine madeOf_runAuthenticated_of (fun url set hset => ?_) ?_
  · exact ⟨hset.1, "remote", hremote, by rw [hset.2]; rfl⟩
  · exact ⟨rfl, name, hname, by simp⟩

/-- Setting the origin right asks for its URL and may set the expected one. -/
theorem makes_repair (expected password : String) :
    Makes (repair workingCopy expected password) fun call =>
      call.folder = some workingCopy ∧
        (call.arguments = urlArguments ∨ call.arguments = setUrlArguments expected) := by
  have hurl : Makes (url workingCopy) fun call =>
      call.folder = some workingCopy ∧
        (call.arguments = urlArguments ∨ call.arguments = setUrlArguments expected) := by
    refine Makes.bind (Makes.run ?_) fun _ => Makes.pure
    intro call hruns
    obtain ⟨hfolder, harguments, -⟩ := hruns
    exact ⟨hfolder, .inl (by rw [harguments, Git.Command.map_text_plain_within]; rfl)⟩
  refine Makes.bind hurl fun current => Makes.ite (fun _ => ?_) fun _ => ?_
  · exact Makes.bind Makes.report fun _ => Makes.pure
  · refine Makes.bind Makes.report fun _ => Makes.bind ?_ fun _ => Makes.pure
    exact (makes_setUrl _ _).mono fun call h => ⟨h.1, .inr h.2⟩

end Origin

end WorkingCopies
