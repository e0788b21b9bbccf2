import WorkingCopies.Proofs.Git.Step
import WorkingCopies.Proofs.Reference.Consult

/-!
# Where a checkout stops

A checkout first probes what the reference is, and goes on only if it is something. Behind the probes
come the checkout itself and two commands for the submodules, one after the other until one fails.
Git is free to answer each of them as it likes, and its answers may change with every command: what
is issued, where and in which order, and which failure is given in the end, is the same for every
git.
-/

namespace WorkingCopies

open Git (Call Command execute succeeds)
open Reference (Kind classify classifyQualified qualify)

variable {α : Type} {host : Host} {git : Git} {before : Workspace} {workingCopy : Path}
  {reference : String} {commands more : List (List String)} {result : Except Failure Unit}
  {calls further : List Call}

namespace Git

/-- What a call asked for: a folder and some arguments. -/
def Call.asked (call : Call) : Option Path × List String := (call.folder, call.arguments)

/-- Whether calls ask for some commands in a folder, in their order, of which some are left out. -/
def AskSome (folder : Path) (commands : List (List String)) (calls : List Call) : Prop :=
  (calls.map (·.asked)).Sublist (commands.map fun arguments => (some folder, arguments))

/-- Asking for one command and then for some of others is asking for some of all. -/
theorem AskSome.cons {folder : Path} {call : Call} {arguments : List String}
    (hcall : call.Asks (some folder) [arguments]) (h : AskSome folder commands calls) :
    AskSome folder (arguments :: commands) (call :: calls) := by
  obtain ⟨hfolder, harguments⟩ := hcall
  have hasked : call.asked = (some folder, arguments) :=
    Prod.ext hfolder (List.mem_singleton.mp harguments)
  unfold AskSome
  rw [List.map_cons, hasked]
  exact List.Sublist.cons_cons _ h

/-- A command that is left out may be named. -/
theorem AskSome.skip {folder : Path} (h : AskSome folder commands calls)
    (arguments : List String) : AskSome folder (arguments :: commands) calls :=
  List.Sublist.cons _ h

/-- No call asks for none of the commands. -/
theorem AskSome.nil {folder : Path} : AskSome folder commands [] := List.nil_sublist _

/-- Commands that are run in a folder one after the other until one fails, with what comes of all of
them and the calls that they are. -/
inductive RunInTurn (folder : Path) : List (List String) → Except Failure Unit → List Call → Prop
    where
  | done : RunInTurn folder [] (.ok ()) []
  | goesOn {arguments : List String} {commands : List (List String)} {call : Call}
      {result : Except Failure Unit} {calls : List Call}
      (hcall : call.Asks (some folder) [arguments]) (hsucceeded : call.succeeded = true)
      (hrest : RunInTurn folder commands result calls) :
      RunInTurn folder (arguments :: commands) result (call :: calls)
  | stops {arguments : List String} {commands : List (List String)} {call : Call}
      {failure : Failure} (hcall : call.Asks (some folder) [arguments])
      (hfailed : call.succeeded = false)
      (hfailure : (Command.plain arguments).conclude call.outcome = .error failure) :
      RunInTurn folder (arguments :: commands) (.error failure) [call]

namespace RunInTurn

/-- All is well exactly if all commands are run and succeed. -/
theorem eq_ok_iff {folder : Path} (h : RunInTurn folder commands result calls) :
    result = .ok () ↔
      calls.map (·.arguments) = commands ∧ ∀ call ∈ calls, call.succeeded = true := by
  induction h with
  | done => simp
  | goesOn hcall hsucceeded _ ih =>
    obtain ⟨-, harguments⟩ := hcall
    rw [ih]
    simp [List.mem_singleton.mp harguments, hsucceeded]
  | stops _ hfailed _ => simp [hfailed]

/-- One command is run as the result of its call says. -/
theorem single {folder : Path} {arguments : List String} {call : Call}
    (hcall : call.Asks (some folder) [arguments]) :
    RunInTurn folder [arguments]
      (((Command.plain arguments).conclude call.outcome).map fun _ => ()) [call] := by
  rcases (Command.plain arguments).conclude_cases call with
    ⟨hsucceeded, output, houtput⟩ | ⟨hfailed, failure, hfailure⟩
  · rw [houtput]
    exact .goesOn hcall hsucceeded .done
  · rw [hfailure]
    exact .stops hcall hfailed hfailure

/-- Behind commands that all succeed more commands are run. -/
theorem append {folder : Path} (h : RunInTurn folder commands (.ok ()) calls)
    (hmore : RunInTurn folder more result further) :
    RunInTurn folder (commands ++ more) result (calls ++ further) := by
  generalize hresult : (.ok () : Except Failure Unit) = first at h
  induction h with
  | done => exact hmore
  | goesOn hcall hsucceeded _ ih => exact .goesOn hcall hsucceeded (ih hresult)
  | stops _ _ _ => cases hresult

/-- A failure ends the whole. -/
theorem append_of_error {folder : Path} {failure : Failure}
    (h : RunInTurn folder commands (.error failure) calls) (more : List (List String)) :
    RunInTurn folder (commands ++ more) (.error failure) calls := by
  generalize hresult : (.error failure : Except Failure Unit) = first at h
  induction h with
  | done => cases hresult
  | goesOn hcall hsucceeded _ ih => exact .goesOn hcall hsucceeded (ih hresult)
  | stops hcall hfailed hfailure => exact .stops hcall hfailed hfailure

end RunInTurn

end Git

open Git (AskSome RunInTurn)

/-- Two operations in turn run the commands of both in turn. -/
theorem Ensures.bind_inTurn {operation : Operation Unit} {next : Unit → Operation Unit}
    (first : Ensures operation host before fun result calls _ =>
      RunInTurn workingCopy commands result calls)
    (rest : ∀ after, Ensures (next ()) host after fun result calls _ =>
      RunInTurn workingCopy more result calls) :
    Ensures (operation >>= next) host before fun result calls _ =>
      RunInTurn workingCopy (commands ++ more) result calls := by
  refine Ensures.bind first ?_ fun _ _ _ hfirst => hfirst.append_of_error more
  intro _ calls after hfirst
  exact (rest after).mono fun _ _ _ hmore => hfirst.append hmore

/-- Running git for its success alone is one command. -/
theorem ensures_discard_execute (hgit : host.git = some git) (arguments : List String) :
    Ensures (discard (execute workingCopy arguments)) host before fun result calls _ =>
      RunInTurn workingCopy [arguments] result calls := by
  refine Ensures.discard ((ensures_execute_asks hgit).mono ?_)
  intro result calls _ hcall
  obtain ⟨call, hasks, rfl, rfl⟩ := hcall
  exact .single hasks

/-- What follows a question to git starts behind one call, whatever the answer. -/
theorem Ensures.bind_probe {arguments : List String} {next : Bool → Operation α}
    {failsBy : Failure → Prop} (hgit : host.git = some git)
    (rest : ∀ answer after, Ensures (next answer) host after fun result calls _ =>
      AskSome workingCopy commands calls ∧ ∀ failure, result = .error failure → failsBy failure) :
    Ensures (succeeds workingCopy arguments >>= next) host before fun result calls _ =>
      AskSome workingCopy (arguments :: commands) calls ∧
        ∀ failure, result = .error failure → failsBy failure := by
  have hprobe : Ensures (succeeds workingCopy arguments) host before fun result calls _ =>
      (∃ answer, result = .ok answer) ∧
        ∃ call : Call, call.Asks (some workingCopy) [arguments] ∧ calls = [call] :=
    ensures_succeeds hgit fun _ _ => ⟨⟨_, rfl⟩, _, git.asks_attempt before _ _, rfl⟩
  refine Ensures.bind hprobe ?_ ?_
  · intro answer calls after hanswer
    obtain ⟨-, call, hasks, rfl⟩ := hanswer
    exact (rest answer after).mono fun _ _ _ hrest => ⟨hrest.1.cons hasks, hrest.2⟩
  · intro failure calls after hanswer
    obtain ⟨⟨_, ⟨⟩⟩, -⟩ := hanswer

namespace Reference

/-- The probes for what does not stand for itself. -/
def qualifiedProbes (reference : String) : List (List String) :=
  [["merge-base", "origin/" ++ reference, "origin/" ++ reference],
    ["merge-base", "tags/" ++ reference, "tags/" ++ reference]]

/-- All probes for a reference, in the order in which they are made. -/
def probes (reference : String) : List (List String) :=
  [["merge-base", reference, reference],
    ["show-ref", "--verify", "--quiet", "refs/heads/" ++ reference],
    ["show-ref", "--verify", "--quiet", "refs/tags/" ++ reference]] ++ qualifiedProbes reference

/-- What does not stand for itself is looked for by two probes, and there is but one failure. -/
theorem ensures_classifyQualified_asks (hgit : host.git = some git) :
    Ensures (classifyQualified workingCopy reference) host before fun result calls _ =>
      AskSome workingCopy (qualifiedProbes reference) calls ∧
        ∀ failure, result = .error failure → failure = .unresolvable reference := by
  refine Ensures.bind_probe hgit fun isBranch after => ?_
  cases isBranch with
  | true => exact Ensures.pure ⟨.nil, by simp⟩
  | false =>
    refine Ensures.bind_probe hgit fun isTag after => ?_
    cases isTag with
    | true => exact Ensures.pure ⟨.nil, by simp⟩
    | false => exact Ensures.throw ⟨.nil, by simp⟩

/-- A reference is classified by its probes, of which some may be left out, and there is but one
failure. -/
theorem ensures_classify_asks (hgit : host.git = some git) :
    Ensures (classify workingCopy reference) host before fun result calls _ =>
      AskSome workingCopy (probes reference) calls ∧
        ∀ failure, result = .error failure → failure = .unresolvable reference := by
  unfold classify
  split
  · exact Ensures.pure ⟨.nil, by simp⟩
  · refine Ensures.bind_probe hgit fun leads after => ?_
    cases leads with
    | false =>
      refine (ensures_classifyQualified_asks hgit).mono fun _ _ _ hqualified => ?_
      exact ⟨(hqualified.1.skip _).skip _, hqualified.2⟩
    | true =>
      refine Ensures.bind_probe hgit fun isBranch after => ?_
      cases isBranch with
      | true => exact Ensures.pure ⟨.nil, by simp⟩
      | false =>
        refine Ensures.bind_probe hgit fun isTag after => ?_
        cases isTag with
        | true => exact ensures_classifyQualified_asks hgit
        | false => exact Ensures.pure ⟨.nil, by simp⟩

end Reference

/-- The commands that put a working copy on a reference of a known kind. -/
def landingCommands (reference : String) (kind : Kind) : List (List String) :=
  [if kind = .tag then ["checkout", "tags/" ++ reference, "-b", reference]
    else ["checkout", reference],
    ["submodule", "init"], ["submodule", "update"]]

/-- Behind its probes a checkout runs its commands in turn. -/
theorem ensures_landing (hgit : host.git = some git) (kind : Kind) :
    Ensures (do checkoutKind workingCopy reference kind; updateSubmodules workingCopy) host before
      fun result calls _ => RunInTurn workingCopy (landingCommands reference kind) result calls := by
  have hkind : Ensures (checkoutKind workingCopy reference kind) host before
      fun result calls _ =>
        RunInTurn workingCopy ((landingCommands reference kind).take 1) result calls := by
    unfold checkoutKind landingCommands
    dsimp only
    split
    · next htag =>
      subst htag
      exact Ensures.step rfl rfl (ensures_discard_execute hgit _)
    · exact Ensures.step rfl rfl (ensures_discard_execute hgit _)
  exact Ensures.bind_inTurn hkind fun _ => Ensures.bind_inTurn
    (ensures_discard_execute hgit ["submodule", "init"]) fun _ =>
      ensures_discard_execute hgit ["submodule", "update"]

/-- Whatever git does, a checkout stops at the first failure. It begins with probes, each at most
once; where these find nothing it fails with that, and nothing else was issued. Otherwise there come
behind the probes the one checkout command of the kind that was found and the two commands for the
submodules, each in the working copy and exactly if the one before succeeded; the checkout succeeds
exactly if all three do, and fails with the failure of the one that fails, which is the last. -/
theorem checkout_runInTurn (git : Git) (environment : Environment) (before : Workspace)
    (workingCopy : Path) (reference : String) :
    let host : Host := ⟨some git, environment⟩
    let classified := (classify workingCopy reference).carryOut host before
    let checked := (checkout workingCopy reference).carryOut host before
    ∃ probes further : List Call,
      classified.2.calls = probes.reverse ++ before.calls ∧
      checked.2.calls = (probes ++ further).reverse ++ before.calls ∧
      AskSome workingCopy (Reference.probes reference) probes ∧
      match classified.1 with
      | .error failure =>
        failure = .unresolvable reference ∧ checked.1 = .error failure ∧ further = []
      | .ok kind =>
        RunInTurn workingCopy (landingCommands reference kind) checked.1 further ∧
          (checked.1 = .ok () ↔ further.map (·.arguments) = landingCommands reference kind ∧
            ∀ call ∈ further, call.succeeded = true) := by
  intro host classified checked
  have hgit : host.git = some git := rfl
  obtain ⟨probes, hprobes, hasked, hfailure⟩ :
    Ensures (classify workingCopy reference) host before _ := Reference.ensures_classify_asks hgit
  cases hresult : classified.1 with
  | error failure =>
    have hchecked : checked = (.error failure, classified.2) := outcome_bind_of_error hresult
    refine ⟨probes, [], hprobes, ?_, hasked, hfailure failure hresult, ?_, rfl⟩
    · rw [hchecked, List.append_nil]
      exact hprobes
    · rw [hchecked]
  | ok kind =>
    have hchecked : checked = Action.outcome (do
        checkoutKind workingCopy reference kind
        updateSubmodules workingCopy) host classified.2 := outcome_bind_of_ok hresult
    obtain ⟨further, hfurther, hrun⟩ :
      Ensures (do checkoutKind workingCopy reference kind; updateSubmodules workingCopy) host
        classified.2 _ := ensures_landing hgit kind
    rw [← hchecked] at hfurther hrun
    refine ⟨probes, further, hprobes, ?_, hasked, hrun, hrun.eq_ok_iff⟩
    rw [List.reverse_append, List.append_assoc]
    exact hfurther.trans (congrArg _ hprobes)

end WorkingCopies
