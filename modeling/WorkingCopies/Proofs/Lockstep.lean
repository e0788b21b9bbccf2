import WorkingCopies.Proofs.Git.MadeOf
import WorkingCopies.Proofs.Repository.Fetch

/-!
# Runs in step

Two actions run in step under a relation of states if from related states they come to related ones
and to results that agree. What keeps a relation step by step keeps it over a whole action, so two
runs on hosts that answer alike can be compared without following either of them.
-/

namespace WorkingCopies

open Git (Command)

variable {State α β γ δ : Type} {values : α → β → Prop} {host other : Host}

/-- Results that agree: the same failure, or values that are related. -/
inductive ResultsAgree (values : α → β → Prop) : Except Failure α → Except Failure β → Prop where
  | ok {value : α} {another : β} (h : values value another) :
      ResultsAgree values (.ok value) (.ok another)
  | error (failure : Failure) : ResultsAgree values (.error failure) (.error failure)

/-- Results with the same values agree if they are the same. -/
theorem resultsAgree_eq_iff {result another : Except Failure α} :
    ResultsAgree Eq result another ↔ result = another := by
  constructor
  · intro h
    cases h with
    | ok hvalue => rw [hvalue]
    | error failure => rfl
  · intro h
    subst h
    cases result with
    | ok value => exact .ok rfl
    | error failure => exact .error failure

/-- From related states two actions, each on its host, come to related states and to results that
agree. -/
def InStep (related : State → State → Prop) (values : α → β → Prop) (host other : Host)
    (action : Action State α) (another : Action State β) : Prop :=
  ∀ first second, related first second →
    ResultsAgree values (action.outcome host first).1 (another.outcome other second).1 ∧
      related (action.outcome host first).2 (another.outcome other second).2

namespace InStep

variable {related : State → State → Prop} {action : Action State α} {another : Action State β}

/-- Giving related values keeps step. -/
theorem pure {value : α} {result : β} (h : values value result) :
    InStep related values host other (Pure.pure value : Action State α)
      (Pure.pure result : Action State β) :=
  fun _ _ hrelated => ⟨.ok h, hrelated⟩

/-- Failing in the same way keeps step. -/
theorem throw {failure : Failure} :
    InStep related values host other (MonadExcept.throw failure : Action State α)
      (MonadExcept.throw failure : Action State β) :=
  fun _ _ hrelated => ⟨.error failure, hrelated⟩

/-- What follows two actions that came to related states goes on from there, and may come to states
that are related in another way. A failure leaves the states of the first actions. -/
theorem follow {next : α → Action State γ} {following : β → Action State δ}
    {results : γ → δ → Prop} {ends : State → State → Prop} {state second : State}
    (first : ResultsAgree values (action.outcome host state).1 (another.outcome other second).1 ∧
      related (action.outcome host state).2 (another.outcome other second).2)
    (hends : ∀ after last, related after last → ends after last)
    (rest : ∀ value result, values value result → ∀ after last, related after last →
      ResultsAgree results ((next value).outcome host after).1
          ((following result).outcome other last).1 ∧
        ends ((next value).outcome host after).2 ((following result).outcome other last).2) :
    ResultsAgree results ((action >>= next).outcome host state).1
        ((another >>= following).outcome other second).1 ∧
      ends ((action >>= next).outcome host state).2
        ((another >>= following).outcome other second).2 := by
  obtain ⟨hresults, hafter⟩ := first
  rw [outcome_bind, outcome_bind]
  cases houtcome : action.outcome host state with
  | mk result after =>
    cases hother : another.outcome other second with
    | mk answer last =>
      rw [houtcome, hother] at hresults hafter
      cases hresults with
      | ok hvalues => exact rest _ _ hvalues after last hafter
      | error failure => exact ⟨.error failure, hends after last hafter⟩

/-- Two actions in turn keep step if each does, the second one for all values that are related. -/
theorem bind {next : α → Action State γ} {following : β → Action State δ}
    {results : γ → δ → Prop} (first : InStep related values host other action another)
    (rest : ∀ value result, values value result →
      InStep related results host other (next value) (following result)) :
    InStep related results host other (action >>= next) (another >>= following) :=
  fun state second hrelated => follow (first state second hrelated) (fun _ _ => id) rest

/-- Changing the values changes how they are related. -/
theorem map {change : α → γ} {convert : β → δ} {results : γ → δ → Prop}
    (h : InStep related values host other action another)
    (hvalues : ∀ value result, values value result → results (change value) (convert result)) :
    InStep related results host other (change <$> action) (convert <$> another) := by
  rw [map_eq_pure_bind, map_eq_pure_bind]
  exact bind h fun value result hvalue => pure (hvalues value result hvalue)

/-- Values that are forgotten agree. -/
theorem discard (h : InStep related values host other action another) :
    InStep related Eq host other (Functor.discard action) (Functor.discard another) :=
  map h fun _ _ _ => rfl

/-- Asking for the state keeps step, with states that are related. -/
theorem get : InStep related related host other (MonadState.get : Action State State)
    (MonadState.get : Action State State) :=
  fun _ _ hrelated => ⟨.ok hrelated, hrelated⟩

section Operations

variable {related : Workspace → Workspace → Prop} {operation : Operation α}
  {following : Operation β}

/-- An operation that asks for the environment goes on with that of its host. -/
theorem environment_left {next : Environment → Operation α}
    (h : InStep related values host other (next host.environment) following) :
    InStep related values host other (Operation.environment >>= next) following :=
  fun first second hrelated => h first second hrelated

/-- The results of attempts agree as those of what is attempted. -/
theorem attempt (h : InStep related values host other operation following) :
    InStep related (ResultsAgree values) host other operation.attempt following.attempt :=
  fun first second hrelated =>
    ⟨.ok (h first second hrelated).1, (h first second hrelated).2⟩

/-- Attempts keep step whatever comes of them if the states behind them are related. -/
theorem attempt_any (h : ∀ first second, related first second →
      related (Action.outcome operation host first).2 (Action.outcome following other second).2) :
    InStep related (fun _ _ => True) host other operation.attempt following.attempt :=
  fun first second hrelated => ⟨.ok trivial, h first second hrelated⟩

/-- Reports keep step under a relation that does not see them. -/
theorem report {level : Log.Level} {topic : Log.Topic} {text : String}
    {otherLevel : Log.Level} {otherTopic : Log.Topic} {otherText : String}
    (hlog : ∀ first second firstLog secondLog, related first second →
      related { first with log := firstLog } { second with log := secondLog }) :
    InStep related Eq host other (Operation.report level topic text)
      (Operation.report otherLevel otherTopic otherText) :=
  fun first second hrelated => ⟨.ok rfl, hlog first second _ _ hrelated⟩

/-- Commands keep step if the calls that git makes of them have the same outcome and leave what is
related. -/
theorem run {command : Command}
    (h : ∀ git, host.git = some git → ∀ first second, related first second →
      (command.callBy git first).outcome = (command.callBy git second).outcome ∧
        related (command.leave first (command.callBy git first))
          (command.leave second (command.callBy git second))) :
    InStep related Eq host host command.run command.run := by
  intro first second hrelated
  rw [resultsAgree_eq_iff, outcome_run, outcome_run]
  cases hgit : host.git with
  | none => exact ⟨rfl, hrelated⟩
  | some git =>
    obtain ⟨houtcome, hleft⟩ := h git hgit first second hrelated
    exact ⟨congrArg command.conclude houtcome, hleft⟩

end Operations

end InStep

/-- What is made of commands keeps step if these do. -/
theorem MadeOf.inStep {allowed : Command → Prop} {related : Workspace → Workspace → Prop}
    {operation : Operation α} (h : MadeOf allowed operation)
    (henvironment : host.environment = other.environment)
    (hreport : ∀ level topic text, InStep related Eq host other
      (Operation.report level topic text) (Operation.report level topic text))
    (hrun : ∀ command, allowed command →
      InStep related Eq host other command.run command.run) :
    InStep related Eq host other operation operation := by
  induction h with
  | pure value => exact .pure rfl
  | throw failure => exact .throw
  | bind _ _ first rest =>
    refine .bind first fun value _ hsame => ?_
    subst hsame
    exact rest value
  | attempt _ ih =>
    intro first second hrelated
    obtain ⟨hresults, hafter⟩ := ih.attempt first second hrelated
    refine ⟨?_, hafter⟩
    cases hresults with
    | ok hvalues => exact .ok (resultsAgree_eq_iff.mp hvalues)
  | report level topic text => exact hreport level topic text
  | environment => exact fun first second hrelated => ⟨.ok henvironment, hrelated⟩
  | run hcommand => exact hrun _ hcommand

/-- Two states of a repository and a workspace that are related part by part. -/
def Paired (alike : Repository → Repository → Prop) (related : Workspace → Workspace → Prop)
    (first second : Repository × Workspace) : Prop :=
  alike first.1 second.1 ∧ related first.2 second.2

/-- Two states of a repository and a workspace with the same repository and related workspaces. -/
abbrev SameRepository (related : Workspace → Workspace → Prop) := Paired Eq related

namespace InStep

variable {alike : Repository → Repository → Prop} {related : Workspace → Workspace → Prop}

/-- Operations that keep step do so as tasks. -/
theorem ofOperation {operation : Operation α} {following : Operation β}
    (h : InStep related values host other operation following) :
    InStep (Paired alike related) values host other (Task.ofOperation operation)
      (Task.ofOperation following) := by
  intro first second hrelated
  obtain ⟨hrepository, hworkspace⟩ := hrelated
  exact ⟨(h first.2 second.2 hworkspace).1, hrepository, (h first.2 second.2 hworkspace).2⟩

/-- Fetches keep step if their latches are alike and the fetches from the sources keep step. -/
theorem fetch_of {workingCopy : Path}
    (hlatch : ∀ first second, alike first second → first.fetched = second.fetched)
    (hset : ∀ first second fetched, alike first second →
      alike { first with fetched } { second with fetched })
    (h : ∀ first second, alike first second →
      InStep related Eq host other (Repository.fetchFrom workingCopy first.source)
        (Repository.fetchFrom workingCopy second.source)) :
    InStep (Paired alike related) Eq host other (Repository.fetch workingCopy)
      (Repository.fetch workingCopy) := by
  intro first second hrelated
  obtain ⟨repository, workspace⟩ := first
  obtain ⟨another, following⟩ := second
  obtain ⟨halike, hworkspace⟩ : alike repository another ∧ related workspace following := hrelated
  show ResultsAgree Eq
      ((Repository.fetch workingCopy).carryOut host repository workspace).1
      ((Repository.fetch workingCopy).carryOut other another following).1 ∧
    Paired alike related
      ((Repository.fetch workingCopy).carryOut host repository workspace).2
      ((Repository.fetch workingCopy).carryOut other another following).2
  rw [Repository.carryOut_fetch, Repository.carryOut_fetch, hlatch _ _ halike]
  split
  · exact ⟨.ok rfl, halike, hworkspace⟩
  · obtain ⟨hresults, hafter⟩ := h repository another halike workspace following hworkspace
    refine ⟨hresults, ?_, hafter⟩
    have hresult := resultsAgree_eq_iff.mp hresults
    show alike _ { another with fetched := ⟨Except.isOk (Action.outcome _ other following).1⟩ }
    rw [← hresult]
    exact hset _ _ _ halike

/-- A fetch keeps step if the fetch from every source does. -/
theorem fetch {workingCopy : Path}
    (h : ∀ source, InStep related Eq host other (Repository.fetchFrom workingCopy source)
      (Repository.fetchFrom workingCopy source)) :
    InStep (SameRepository related) Eq host other (Repository.fetch workingCopy)
      (Repository.fetch workingCopy) := by
  refine .fetch_of ?_ ?_ ?_
  · exact fun _ _ hsame => congrArg Repository.fetched hsame
  · exact fun _ _ fetched hsame => congrArg ({ · with fetched }) hsame
  · intro repository another hsame
    subst hsame
    exact h repository.source

end InStep

end WorkingCopies
