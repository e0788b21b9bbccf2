import WorkingCopies.Proofs.Git.MadeOf

/-!
# The commands of each operation

Whatever git answers, an operation on a working copy runs some few commands of git and no others,
and it runs all of them in that working copy.
-/

namespace WorkingCopies

open Git (Command)

variable {workingCopy : Path} {names : List String}

namespace Reference

/-- The commands that only ask what a reference names. -/
def probeCommands : List String := ["merge-base", "show-ref"]

/-- Asking whether a name leads to a commit is a probe. -/
theorem madeOf_leadsToCommit (name : String) :
    MadeOf (fun command => command.Names workingCopy probeCommands)
      (leadsToCommit workingCopy name) := .succeeds (by decide)

/-- Asking whether a reference exists under its full name is a probe. -/
theorem madeOf_fullNameExists (name : String) :
    MadeOf (fun command => command.Names workingCopy probeCommands)
      (fullNameExists workingCopy name) := .succeeds (by decide)

/-- Classifying what is no local branch and no commit as it stands is made of probes. -/
theorem madeOf_classifyQualified (reference : String) :
    MadeOf (fun command => command.Names workingCopy probeCommands)
      (classifyQualified workingCopy reference) := by
  refine .bind (madeOf_leadsToCommit _) fun isBranch => .ite (fun _ => .pure _) fun _ => ?_
  exact .bind (madeOf_leadsToCommit _) fun isTag => .ite (fun _ => .pure _) fun _ => .throw _

/-- Classifying a reference is made of probes. -/
theorem madeOf_classify (reference : String) :
    MadeOf (fun command => command.Names workingCopy probeCommands)
      (classify workingCopy reference) := by
  have hqualified := @madeOf_classifyQualified workingCopy reference
  refine .ite (fun _ => .pure _) fun _ => ?_
  refine .bind (madeOf_leadsToCommit _) fun leads => .ite (fun _ => ?_) fun _ => hqualified
  refine .bind (madeOf_fullNameExists _) fun isBranch => .ite (fun _ => .pure _) fun _ => ?_
  exact .bind (madeOf_fullNameExists _) fun isTag => .ite (fun _ => .pure _) fun _ => hqualified

/-- Classifying a reference runs probes alone. -/
theorem makes_classify (reference : String) :
    Makes (classify workingCopy reference) fun call => call.Names workingCopy probeCommands :=
  (madeOf_classify reference).makes_names

/-- Spelling a reference for git is made of probes. -/
theorem madeOf_qualifiedName (reference : String) :
    MadeOf (fun command => command.Names workingCopy probeCommands)
      (qualifiedName workingCopy reference) :=
  .bind (madeOf_classify reference) fun _ => .pure _

end Reference

open Reference (classify madeOf_classify madeOf_qualifiedName probeCommands qualifiedName)

/-- The arguments with which a checkout is carried out. -/
def checkoutArguments (reference : String) : List (List String) :=
  [["checkout", reference], ["checkout", Reference.qualify reference .tag, "-b", reference],
    ["submodule", "init"], ["submodule", "update"]]

/-- A command that a checkout is carried out with. -/
def ChecksOutBy (workingCopy : Path) (reference : String) (command : Command) : Prop :=
  command.folder = some workingCopy ∧
    command.arguments.map (·.text) ∈ checkoutArguments reference

/-- A checkout is made of probes, the checkout itself and the commands that bring the submodules
along. -/
theorem madeOf_checkout_arguments (reference : String) :
    MadeOf (fun command => command.Names workingCopy probeCommands ∨
      ChecksOutBy workingCopy reference command) (checkout workingCopy reference) := by
  have hexecute {arguments : List String} (harguments : arguments ∈ checkoutArguments reference) :
      MadeOf (fun command => command.Names workingCopy probeCommands ∨
        ChecksOutBy workingCopy reference command)
        (discard (Git.execute workingCopy arguments)) := by
    refine .discard (.run (.inr ⟨Command.folder_within _ _, ?_⟩))
    rwa [Command.map_text_plain_within]
  have hkind (kind : Reference.Kind) :
      MadeOf (fun command => command.Names workingCopy probeCommands ∨
        ChecksOutBy workingCopy reference command) (checkoutKind workingCopy reference kind) := by
    refine .ite (fun htag => ?_) fun _ => ?_
    · exact .bind (.report _ _ _) fun _ => hexecute (by simp [checkoutArguments, htag])
    · exact .bind (.report _ _ _) fun _ => hexecute (by simp [checkoutArguments])
  refine .bind ((madeOf_classify reference).mono fun _ => .inl) fun kind => .bind (hkind kind) ?_
  exact fun _ => .bind (hexecute (by simp [checkoutArguments])) fun _ =>
    hexecute (by simp [checkoutArguments])

/-- A checkout runs probes, the checkout itself and the commands that bring the submodules along. -/
theorem makes_checkout_arguments (reference : String) :
    Makes (checkout workingCopy reference) fun call =>
      call.Names workingCopy probeCommands ∨
        (call.folder = some workingCopy ∧ call.arguments ∈ checkoutArguments reference) := by
  refine (madeOf_checkout_arguments reference).makes.mono fun call hcall => ?_
  obtain ⟨command, hprobe | ⟨hfolder, harguments⟩, hruns⟩ := hcall
  · exact .inl (hruns.names hprobe)
  · exact .inr ⟨hruns.folder.trans hfolder, by rwa [hruns.arguments]⟩

/-- The commands of a checkout. -/
def checkoutCommands : List String := "checkout" :: "submodule" :: probeCommands

/-- A checkout is made of its commands. -/
theorem madeOf_checkout (reference : String) :
    MadeOf (fun command => command.Names workingCopy checkoutCommands)
      (checkout workingCopy reference) := by
  refine (madeOf_checkout_arguments reference).mono ?_
  intro command hcommand
  rcases hcommand with ⟨hfolder, name, hname, hhead⟩ | ⟨hfolder, harguments⟩
  · exact ⟨hfolder, name, by simp [checkoutCommands, hname], hhead⟩
  · simp only [checkoutArguments, List.mem_cons, List.not_mem_nil, or_false] at harguments
    refine ⟨hfolder, ?_⟩
    rcases harguments with harguments | harguments | harguments | harguments <;>
      simp [harguments, checkoutCommands]

/-- A checkout runs its commands in the working copy. -/
theorem makes_checkout (reference : String) :
    Makes (checkout workingCopy reference) fun call => call.Names workingCopy checkoutCommands :=
  (madeOf_checkout reference).makes_names

/-- A merge is made of probes and the merge itself. -/
theorem madeOf_tryMerge (reference : String) :
    MadeOf (fun command => command.Names workingCopy ("merge" :: probeCommands))
      (tryMerge workingCopy reference) := by
  refine .bind (.attempt ((madeOf_classify reference).widen (by simp))) fun result => ?_
  cases result with
  | error failure => exact .bind (.report _ _ _) fun _ => .pure _
  | ok kind =>
    refine .bind (.attempt (.execute (by decide))) fun merged => ?_
    cases merged <;> exact .bind (.report _ _ _) fun _ => .pure _

/-- The commands of an update that has nothing left to fetch. -/
def mergeCommands : List String := "merge" :: checkoutCommands

/-- A checkout with a merge behind it is made of the commands of both. -/
theorem madeOf_checkoutAndMerge (reference : String) :
    MadeOf (fun command => command.Names workingCopy mergeCommands)
      (checkoutAndMerge workingCopy reference) := by
  have hcheckout : MadeOf (fun command => command.Names workingCopy mergeCommands)
      (checkout workingCopy reference) :=
    (madeOf_checkout reference).widen (by simp [mergeCommands])
  have hmerge : MadeOf (fun command => command.Names workingCopy mergeCommands)
      (tryMerge workingCopy reference) :=
    (madeOf_tryMerge reference).widen (by simp [mergeCommands, checkoutCommands, probeCommands])
  exact .bind hcheckout fun _ => .discard hmerge

/-- A checkout with a merge behind it runs the commands of both. -/
theorem makes_checkoutAndMerge (reference : String) :
    Makes (checkoutAndMerge workingCopy reference) fun call =>
      call.Names workingCopy mergeCommands :=
  (madeOf_checkoutAndMerge reference).makes_names

namespace WorkingCopy

/-- Finding the hash of a reference is made of probes and one more command. -/
theorem madeOf_hashOf (reference : String) :
    MadeOf (fun command => command.Names workingCopy ("rev-parse" :: probeCommands))
      (hashOf workingCopy reference) :=
  .bind ((madeOf_qualifiedName reference).widen (by simp)) fun _ => .executeText (by simp)

/-- Finding the hash of a reference runs these commands. -/
theorem makes_hashOf (reference : String) :
    Makes (hashOf workingCopy reference) fun call =>
      call.Names workingCopy ("rev-parse" :: probeCommands) :=
  (madeOf_hashOf reference).makes_names

/-- Finding the names of a commit is made of one command more than finding its hash. -/
theorem madeOf_namesOf (reference : String) :
    MadeOf (fun command => command.Names workingCopy ("for-each-ref" :: "rev-parse" :: probeCommands))
      (namesOf workingCopy reference) :=
  .bind ((madeOf_hashOf reference).widen (by simp)) fun _ =>
    .bind (.executeText (by simp)) fun _ => .pure _

/-- Finding the names of a commit runs these commands. -/
theorem makes_namesOf (reference : String) :
    Makes (namesOf workingCopy reference) fun call =>
      call.Names workingCopy ("for-each-ref" :: "rev-parse" :: probeCommands) :=
  (madeOf_namesOf reference).makes_names

/-- The arguments that ask for the files that are not as they were staged. -/
def changesArguments : List String := ["diff", "--name-only"]

/-- Looking for changes is made of one command. -/
theorem madeOf_hasChanges :
    MadeOf (fun command => command.folder = some workingCopy ∧
      command.arguments.map (·.text) = changesArguments) (hasChanges workingCopy) :=
  .bind (.run ⟨rfl, rfl⟩) fun _ => .pure _

/-- Looking for changes runs this command. -/
theorem makes_hasChanges :
    Makes (hasChanges workingCopy) fun call => call.Names workingCopy ["diff"] := by
  refine (madeOf_hasChanges.mono fun command hcommand => ?_).makes_names
  exact ⟨hcommand.1, "diff", by simp, by rw [hcommand.2]; rfl⟩

/-- Writing a file of a reference runs probes and one more command. -/
theorem makes_showFile (reference file : String) (folder : Path) :
    Makes (showFile workingCopy reference file folder) fun call =>
      call.Names workingCopy ("show" :: probeCommands) := by
  have hname : Makes (qualifiedName workingCopy reference) fun call =>
      call.Names workingCopy ("show" :: probeCommands) :=
    (madeOf_qualifiedName reference).makes_names.widen (by simp)
  refine Makes.bind Makes.edit fun _ => Makes.bind hname fun name => ?_
  refine Makes.bind Makes.report fun _ => Makes.bind (Makes.execute (by simp)) fun _ => ?_
  split
  · exact Makes.bind Makes.edit fun _ => Makes.edit
  · exact Makes.edit

end WorkingCopy

end WorkingCopies
