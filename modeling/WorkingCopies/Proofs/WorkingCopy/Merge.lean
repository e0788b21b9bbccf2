import WorkingCopies.Proofs.Commands
import WorkingCopies.Proofs.Lockstep

/-!
# The merge behind a checkout

A merge is tried behind the probes that say what the reference is. Whatever comes of it is told by a
flag and the log alone, so two gits that differ in nothing but their replies to merges bring a
checkout with a merge to the same end, by the same commands.
-/

namespace WorkingCopies

open Git (Call Command)
open Reference (Kind classify madeOf_classify makes_classify probeCommands qualify)

variable {host : Host} {git other : Git} {environment : Environment} {before : Workspace}
  {workingCopy : Path} {reference : String} {alike : Git.View → Git.View → Prop}

namespace Git

/-- Whether a call is a merge. -/
def Call.isMerge (call : Call) : Bool := call.arguments.head? = some "merge"

/-- The folder and the arguments of a call. -/
def Call.command (call : Call) : Option Path × List String := (call.folder, call.arguments)

/-- The call that git makes of a command has its folder and its arguments. -/
theorem command_callBy (command : Command) (git : Git) (workspace : Workspace) :
    (command.callBy git workspace).command =
      (command.folder, command.arguments.map (·.text)) := rfl

/-- Two gits that agree on all commands but merges. They may go by different calls and files, as
long as these are alike in a way that no command tells apart and no reply to a merge changes. -/
structure AgreeButForMerges (alike : Git.View → Git.View → Prop) (git other : Git) : Prop where
  same (first second : Workspace) (folder : Option Path) (arguments : List String) :
    alike first.view second.view → arguments.head? ≠ some "merge" →
      (git.attempt first folder arguments).outcome = (other.attempt second folder arguments).outcome
  keeps (first second : Workspace) (folder : Option Path) (arguments : List String) :
    alike first.view second.view →
      alike (first.view.behind (git.attempt first folder arguments))
        (second.view.behind (other.attempt second folder arguments))

end Git

/-- Workspaces that gits find alike, and in which the same commands were run. -/
def SameCommands (alike : Git.View → Git.View → Prop) (first second : Workspace) : Prop :=
  alike first.view second.view ∧ first.calls.map (·.command) = second.calls.map (·.command)

namespace Git.AgreeButForMerges

/-- Behind every command the two gits find the same commands and what is alike. -/
theorem sameCommands_run (h : AgreeButForMerges alike git other) (command : Command)
    {first second : Workspace} (hsame : SameCommands alike first second) :
    SameCommands alike (Action.outcome command.run ⟨some git, environment⟩ first).2
      (Action.outcome command.run ⟨some other, environment⟩ second).2 := by
  obtain ⟨halike, hcommands⟩ := hsame
  rw [outcome_run, outcome_run]
  refine ⟨h.keeps first second _ _ halike, ?_⟩
  show (_ :: first.calls).map Call.command = (_ :: second.calls).map Call.command
  rw [List.map_cons, List.map_cons, hcommands, command_callBy, command_callBy]

/-- A command that is no merge gives the same on both sides. -/
theorem inStep_run (h : AgreeButForMerges alike git other) {command : Command}
    (hcommand : (command.arguments.map (·.text)).head? ≠ some "merge") :
    InStep (SameCommands alike) Eq ⟨some git, environment⟩ ⟨some other, environment⟩
      command.run command.run := by
  intro first second hsame
  refine ⟨?_, h.sameCommands_run command hsame⟩
  have houtcome : (command.callBy git first).outcome = (command.callBy other second).outcome :=
    h.same first second _ _ hsame.1 hcommand
  rw [resultsAgree_eq_iff, outcome_run, outcome_run]
  exact congrArg command.conclude houtcome

/-- What is made of other commands than merges gives the same on both sides. -/
theorem inStep {α : Type} (h : AgreeButForMerges alike git other) {names : List String}
    {operation : Operation α} (hnames : "merge" ∉ names)
    (hmade : MadeOf (fun command => command.Names workingCopy names) operation) :
    InStep (SameCommands alike) Eq ⟨some git, environment⟩ ⟨some other, environment⟩
      operation operation := by
  have hreport (level : Log.Level) (topic : Log.Topic) (text : String) :
      InStep (SameCommands alike) Eq ⟨some git, environment⟩ ⟨some other, environment⟩
        (Operation.report level topic text) (Operation.report level topic text) :=
    .report fun _ _ _ _ hsame => hsame
  refine hmade.inStep rfl hreport fun command hcommand => ?_
  obtain ⟨-, name, hname, hhead⟩ := hcommand
  refine h.inStep_run fun hmerge => ?_
  obtain rfl : "merge" = name := Option.some.inj (hmerge.symm.trans hhead)
  exact hnames hname

/-- A merge that is tried may come to something else, but leaves what is alike. -/
theorem inStep_tryMerge (h : AgreeButForMerges alike git other) :
    InStep (SameCommands alike) (fun _ _ => True) ⟨some git, environment⟩
      ⟨some other, environment⟩ (tryMerge workingCopy reference)
      (tryMerge workingCopy reference) := by
  have hreport {level : Log.Level} {topic : Log.Topic} {text otherText : String}
      {flag otherFlag : Bool} :
      InStep (SameCommands alike) (fun _ _ => True) ⟨some git, environment⟩
        ⟨some other, environment⟩
        (Operation.report level topic text >>= fun _ => pure flag)
        (Operation.report level topic otherText >>= fun _ => pure otherFlag) :=
    .bind (.report fun _ _ _ _ hsame => hsame) fun _ _ _ => .pure trivial
  have hclassify : InStep (SameCommands alike) Eq ⟨some git, environment⟩
      ⟨some other, environment⟩ (classify workingCopy reference)
      (classify workingCopy reference) := h.inStep (by decide) (madeOf_classify reference)
  refine .bind hclassify.attempt fun result answer hagree => ?_
  cases hagree with
  | error failure => exact hreport
  | ok hkind =>
    subst hkind
    refine .bind (.attempt_any fun _ _ hsame => h.sameCommands_run _ hsame) fun merged found _ => ?_
    cases merged <;> cases found <;> exact hreport

/-- A checkout with a merge behind it comes to the same on both sides. -/
theorem inStep_checkoutAndMerge (h : AgreeButForMerges alike git other) :
    InStep (SameCommands alike) Eq ⟨some git, environment⟩ ⟨some other, environment⟩
      (checkoutAndMerge workingCopy reference) (checkoutAndMerge workingCopy reference) :=
  .bind (h.inStep (by decide) (madeOf_checkout reference)) fun _ _ _ => h.inStep_tryMerge.discard

end Git.AgreeButForMerges

/-- The reference that is merged where a reference is of some kind. -/
def mergeTarget (reference : String) : Kind → String
  | .localBranch | .remoteBranch => "origin/" ++ reference
  | .tag => "tags/" ++ reference
  | .hash => reference

/-- The arguments of the merge of a reference of some kind. -/
def mergeArguments (reference : String) (kind : Kind) : List String :=
  ["merge", "--no-commit", "--no-ff", mergeTarget reference kind]

/-- A local branch is merged as the branch of the remote. -/
theorem qualify_mergedKind (kind : Kind) :
    qualify reference (mergedKind kind) = mergeTarget reference kind := by
  cases kind <;> rfl

/-- What comes of a merge that is tried, and the calls that it makes, where it is known what the
reference is classified as. -/
structure TriesMerge (workingCopy : Path) (reference : String) (kind : Except Failure Kind)
    (result : Except Failure Bool) (calls : List Call) : Prop where
  /-- It never fails, and says whether a merge was made and succeeded. -/
  tells : ∃ flag, result = .ok flag ∧
    (flag = true ↔ ∃ call ∈ calls, call.isMerge = true ∧ call.succeeded = true)
  /-- One merge is made if the reference is known for something, and none if it is not. -/
  made : (∃ call ∈ calls, call.isMerge = true) ↔ ∃ found, kind = .ok found
  once : calls.countP Call.isMerge ≤ 1
  target : ∀ call ∈ calls, call.isMerge = true → ∃ found, kind = .ok found ∧
    call.folder = some workingCopy ∧ call.arguments = mergeArguments reference found

/-- Calls that name other commands are no merges. -/
theorem isMerge_eq_false {call : Call} {names : List String} (h : call.Names workingCopy names)
    (hnames : "merge" ∉ names) : call.isMerge = false :=
  decide_eq_false (h.head_ne hnames)

/-- Where no call is a merge there are none. -/
theorem countP_isMerge_eq_zero {calls : List Call} (h : ∀ call ∈ calls, call.isMerge = false) :
    calls.countP Call.isMerge = 0 := by
  rw [List.countP_eq_zero]
  simpa using h

namespace TriesMerge

variable {kind : Except Failure Kind} {probes : List Call}

/-- Without a merge nothing was merged. -/
theorem of_probes {failure : Failure} (hprobes : ∀ call ∈ probes, call.isMerge = false)
    (hkind : kind = .error failure) :
    TriesMerge workingCopy reference kind (.ok false) probes := by
  have hnone : ¬ ∃ call ∈ probes, call.isMerge = true := by
    simpa using hprobes
  constructor
  · refine ⟨false, rfl, iff_of_false Bool.false_ne_true ?_⟩
    rintro ⟨call, hcall, hmerge, -⟩
    exact hnone ⟨call, hcall, hmerge⟩
  · exact iff_of_false hnone (by simp [hkind])
  · simp [countP_isMerge_eq_zero hprobes]
  · exact fun call hcall hmerge => absurd ⟨call, hcall, hmerge⟩ hnone

/-- One merge behind calls that are none is what was merged, if it succeeded. -/
theorem of_merge {merge : Call} {found : Kind} (hprobes : ∀ call ∈ probes, call.isMerge = false)
    (hkind : kind = .ok found) (hfolder : merge.folder = some workingCopy)
    (harguments : merge.arguments = mergeArguments reference found) :
    TriesMerge workingCopy reference kind (.ok merge.succeeded) (probes ++ [merge]) := by
  have hmerge : merge.isMerge = true := decide_eq_true (by rw [harguments]; rfl)
  have honly : ∀ call ∈ probes ++ [merge], call.isMerge = true → call = merge := by
    intro call hcall hother
    rcases List.mem_append.mp hcall with hcall | hcall
    · rw [hprobes call hcall] at hother
      cases hother
    · exact List.mem_singleton.mp hcall
  constructor
  · refine ⟨merge.succeeded, rfl, ?_⟩
    constructor
    · exact fun hsucceeded => ⟨merge, by simp, hmerge, hsucceeded⟩
    · rintro ⟨call, hcall, hother, hsucceeded⟩
      rwa [honly call hcall hother] at hsucceeded
  · exact iff_of_true ⟨merge, by simp, hmerge⟩ ⟨found, hkind⟩
  · simp [List.countP_append, countP_isMerge_eq_zero hprobes, hmerge]
  · intro call hcall hother
    obtain rfl := honly call hcall hother
    exact ⟨found, hkind, hfolder, harguments⟩

end TriesMerge

/-- Trying to merge makes one merge behind the probes if these give a kind, and none if they do
not. -/
theorem ensures_tryMerge (hgit : host.git = some git) :
    Ensures (tryMerge workingCopy reference) host before fun result calls _ =>
      TriesMerge workingCopy reference ((classify workingCopy reference).carryOut host before).1
        result calls := by
  have hclassify : Ensures (classify workingCopy reference) host before fun result calls _ =>
      result = ((classify workingCopy reference).carryOut host before).1 ∧
        ∀ call ∈ calls, call.Names workingCopy probeCommands :=
    (makes_classify reference host before).and_result rfl
  refine Ensures.bind_attempt hclassify ?_
  intro result probes between hprobed
  obtain ⟨hkind, hprobes⟩ := hprobed
  have hnone : ∀ call ∈ probes, call.isMerge = false := fun call hcall =>
    isMerge_eq_false (hprobes call hcall) (by decide)
  cases result with
  | error failure =>
    refine Ensures.step rfl rfl (Ensures.pure ?_)
    rw [List.append_nil]
    exact .of_probes hnone hkind.symm
  | ok kind =>
    refine Ensures.bind_attempt (ensures_run_of_git hgit) ?_
    intro output calls after hrun
    obtain ⟨merge, hruns, rfl, houtput⟩ := hrun
    have harguments : merge.arguments = mergeArguments reference kind := by
      rw [hruns.arguments, Command.map_text_plain_within, qualify_mergedKind]
      rfl
    have htries := TriesMerge.of_merge hnone hkind.symm hruns.folder harguments
    rw [← Command.isSome_toOption_conclude, ← houtput] at htries
    cases output with
    | ok _ =>
      refine Ensures.step rfl rfl (Ensures.pure ?_)
      rwa [List.append_nil]
    | error failure =>
      refine Ensures.step rfl rfl (Ensures.pure ?_)
      rwa [List.append_nil]

/-- A merge that is tried is no failure. -/
theorem outcome_discard_tryMerge (hgit : host.git = some git) (before : Workspace) :
    Action.outcome (discard (tryMerge workingCopy reference)) host before =
      (.ok (), ((tryMerge workingCopy reference).carryOut host before).2) := by
  have htries : Ensures (tryMerge workingCopy reference) host before _ := ensures_tryMerge hgit
  obtain ⟨calls, -, htries⟩ := htries
  obtain ⟨flag, hflag, -⟩ := htries.tells
  rw [outcome_discard, hflag]
  rfl

/-- A checkout that fails has no merge behind it. -/
theorem carryOut_checkoutAndMerge_of_error {failure : Failure}
    (h : ((checkout workingCopy reference).carryOut host before).1 = .error failure) :
    (checkoutAndMerge workingCopy reference).carryOut host before =
      (.error failure, ((checkout workingCopy reference).carryOut host before).2) :=
  outcome_bind_of_error h

/-- A checkout that succeeds has one, and succeeds whatever comes of it. -/
theorem carryOut_checkoutAndMerge_of_ok (hgit : host.git = some git)
    (h : ((checkout workingCopy reference).carryOut host before).1 = .ok ()) :
    (checkoutAndMerge workingCopy reference).carryOut host before =
      (.ok (), ((tryMerge workingCopy reference).carryOut host
        ((checkout workingCopy reference).carryOut host before).2).2) :=
  (outcome_bind_of_ok h).trans (outcome_discard_tryMerge hgit _)

/-- With a merge behind it a checkout comes to what it comes to without one. -/
theorem result_checkoutAndMerge (hgit : host.git = some git) :
    ((checkoutAndMerge workingCopy reference).carryOut host before).1 =
      ((checkout workingCopy reference).carryOut host before).1 := by
  cases hfirst : ((checkout workingCopy reference).carryOut host before).1 with
  | error failure => rw [carryOut_checkoutAndMerge_of_error hfirst]
  | ok _ => rw [carryOut_checkoutAndMerge_of_ok hgit hfirst]

end WorkingCopies
