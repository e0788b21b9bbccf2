import WorkingCopies.Repository

/-!
# What an action ensures

An action that fails keeps what it has done, so a statement about it speaks of three things at once:
its result, whether a value or a failure, the calls of git made on the way, and the state that is
left. `Ensures` states such a thing, and the rules below carry it from the parts of an action to the
whole. The calls are counted from where the action starts, the first one first, so that the calls of
two actions done in turn are the calls of the first followed by those of the second.
-/

namespace WorkingCopies

/-- Results can be compared where their values can. -/
instance decidableEqResult {α : Type} [DecidableEq α] : DecidableEq (Except Failure α)
  | .ok first, .ok second => decidable_of_iff (first = second) (by simp)
  | .error first, .error second => decidable_of_iff (first = second) (by simp)
  | .ok _, .error _ => isFalse (by simp)
  | .error _, .ok _ => isFalse (by simp)

/-- A state that keeps the calls of git, the last one first. -/
class KeepsCalls (State : Type) where
  calls : State → List Git.Call

instance : KeepsCalls Workspace := ⟨Workspace.calls⟩

instance : KeepsCalls (Repository × Workspace) := ⟨fun state => state.2.calls⟩

/-- Something that is done on a host and changes a state. Operations and tasks are of this form. -/
abbrev Action (State : Type) := ReaderT Host (ExceptT Failure (StateM State))

/-- The result of an action, and the state that it leaves. -/
def Action.outcome {State α : Type} (action : Action State α) (host : Host) (before : State) :
    Except Failure α × State :=
  (action.run host).run.run before

/-- An action adds some calls to those that were made before, and its result, these calls and the
state that it leaves have a property. -/
def Ensures {State α : Type} [KeepsCalls State] (action : Action State α) (host : Host)
    (before : State) (post : Except Failure α → List Git.Call → State → Prop) : Prop :=
  ∃ calls,
    KeepsCalls.calls (action.outcome host before).2 =
      calls.reverse ++ KeepsCalls.calls before ∧
    post (action.outcome host before).1 calls (action.outcome host before).2

variable {State α β : Type} {host : Host} {before : State}

/-- Actions that come to the same everywhere are the same. -/
theorem Action.ext {action other : Action State α}
    (h : ∀ host before, action.outcome host before = other.outcome host before) : action = other :=
  funext fun host => funext fun before => h host before

/-- What follows an action starts where the action ended, and is left out when it failed. -/
theorem outcome_bind (action : Action State α) (next : α → Action State β) :
    Action.outcome (action >>= next) host before =
      match action.outcome host before with
      | (.ok value, after) => (next value).outcome host after
      | (.error failure, after) => (.error failure, after) := by
  simp only [Action.outcome, ReaderT.run_bind, ExceptT.run_bind, StateT.run_bind]
  show (match (action.run host).run.run before with | (result, after) => _) = _
  cases (action.run host).run.run before with
  | mk result after => cases result <;> rfl

/-- A failure ends the whole where it happened. -/
theorem outcome_bind_of_error {action : Action State α} {next : α → Action State β}
    {failure : Failure} (h : (action.outcome host before).1 = .error failure) :
    Action.outcome (action >>= next) host before =
      (.error failure, (action.outcome host before).2) := by
  rw [outcome_bind]
  cases houtcome : action.outcome host before with
  | mk result after =>
    rw [houtcome] at h
    cases h
    rfl

/-- What follows a success starts where the success left off. -/
theorem outcome_bind_of_ok {action : Action State α} {next : α → Action State β} {value : α}
    (h : (action.outcome host before).1 = .ok value) :
    Action.outcome (action >>= next) host before =
      (next value).outcome host (action.outcome host before).2 := by
  rw [outcome_bind]
  cases houtcome : action.outcome host before with
  | mk result after =>
    rw [houtcome] at h
    cases h
    rfl

/-- Forgetting the value of a result changes nothing else. -/
theorem outcome_discard (action : Action State α) :
    Action.outcome (discard action) host before =
      ((action.outcome host before).1.map fun _ => ⟨⟩, (action.outcome host before).2) := by
  have hdiscard : discard action = action >>= fun _ => Pure.pure PUnit.unit := by
    rw [← map_eq_pure_bind]
    rfl
  rw [hdiscard, outcome_bind]
  cases action.outcome host before with
  | mk result after => cases result <;> rfl

/-- An edit changes the files alone, and its fault becomes a failure. -/
theorem outcome_edit (change : FileSystem.Edit α) (host : Host) (before : Workspace) :
    Action.outcome (Operation.edit change) host before =
      ((change.run.run before.files).1.mapError .fileSystem,
        { before with files := (change.run.run before.files).2 }) := by
  unfold Operation.edit
  rw [outcome_bind]
  show Action.outcome _ host before = _
  rcases change.run.run before.files with ⟨_ | _, files⟩ <;> rfl

namespace Ensures

variable [KeepsCalls State] {post : Except Failure α → List Git.Call → State → Prop}

/-- A property that follows from an ensured one is ensured. -/
theorem mono {action : Action State α} {weaker : Except Failure α → List Git.Call → State → Prop}
    (h : Ensures action host before post)
    (hpost : ∀ result calls after, post result calls after → weaker result calls after) :
    Ensures action host before weaker := by
  obtain ⟨calls, hcalls, h⟩ := h
  exact ⟨calls, hcalls, hpost _ _ _ h⟩

/-- What is ensured holds of the calls that were made, whatever way they are found. -/
theorem of_calls {action : Action State α} {calls : List Git.Call}
    (h : Ensures action host before post)
    (hcalls : KeepsCalls.calls (action.outcome host before).2 =
      calls.reverse ++ KeepsCalls.calls before) :
    post (action.outcome host before).1 calls (action.outcome host before).2 := by
  obtain ⟨others, hothers, h⟩ := h
  obtain rfl : others = calls := by simpa using hothers.symm.trans hcalls
  exact h

/-- Two properties that are ensured are ensured together: both speak of the same calls. -/
theorem both {action : Action State α} {other : Except Failure α → List Git.Call → State → Prop}
    (h : Ensures action host before post) (hother : Ensures action host before other) :
    Ensures action host before fun result calls after =>
      post result calls after ∧ other result calls after := by
  obtain ⟨calls, hcalls, h⟩ := h
  exact ⟨calls, hcalls, h, hother.of_calls hcalls⟩

/-- What is known of the state that is left can be added to what is ensured. -/
theorem and_after {action : Action State α} {property : State → Prop}
    (h : Ensures action host before post) (hafter : property (action.outcome host before).2) :
    Ensures action host before fun result calls after =>
      property after ∧ post result calls after := by
  obtain ⟨calls, hcalls, h⟩ := h
  exact ⟨calls, hcalls, hafter, h⟩

/-- The state of what is ensured is the one that the action leaves. -/
theorem with_outcome {action : Action State α} (h : Ensures action host before post) :
    Ensures action host before fun result calls after =>
      after = (action.outcome host before).2 ∧ post result calls after :=
  h.and_after rfl

/-- The calls of what is ensured are those that were added. -/
theorem with_calls {action : Action State α} (h : Ensures action host before post) :
    Ensures action host before fun result calls after =>
      KeepsCalls.calls after = calls.reverse ++ KeepsCalls.calls before ∧
        post result calls after := by
  obtain ⟨calls, hcalls, h⟩ := h
  exact ⟨calls, hcalls, hcalls, h⟩

/-- What is known of the result can be added to what is ensured. -/
theorem and_result {action : Action State α} {property : Except Failure α → Prop}
    (h : Ensures action host before post) (hresult : property (action.outcome host before).1) :
    Ensures action host before fun result calls after =>
      property result ∧ post result calls after := by
  obtain ⟨calls, hcalls, h⟩ := h
  exact ⟨calls, hcalls, hresult, h⟩

/-- Giving a value makes no call. -/
theorem pure {value : α} (h : post (.ok value) [] before) :
    Ensures (Pure.pure value) host before post :=
  ⟨[], rfl, h⟩

/-- Failing makes no call. -/
theorem throw {failure : Failure} (h : post (.error failure) [] before) :
    Ensures (MonadExcept.throw failure) host before post :=
  ⟨[], rfl, h⟩

/-- What follows a success adds its calls to those made before; a failure ends the whole. -/
theorem bind {action : Action State α} {next : α → Action State β}
    {post : Except Failure β → List Git.Call → State → Prop}
    {middle : Except Failure α → List Git.Call → State → Prop}
    (first : Ensures action host before middle)
    (success : ∀ value calls after, middle (.ok value) calls after →
      Ensures (next value) host after fun result more last => post result (calls ++ more) last)
    (failure : ∀ failure calls after, middle (.error failure) calls after →
      post (.error failure) calls after) :
    Ensures (action >>= next) host before post := by
  obtain ⟨calls, hcalls, hmiddle⟩ := first
  unfold Ensures
  rw [outcome_bind]
  cases houtcome : action.outcome host before with
  | mk result after =>
    rw [houtcome] at hcalls hmiddle
    cases result with
    | error cause => exact ⟨calls, hcalls, failure cause calls after hmiddle⟩
    | ok value =>
      obtain ⟨more, hmore, hpost⟩ := success value calls after hmiddle
      refine ⟨calls ++ more, ?_, hpost⟩
      simpa [hmore] using hcalls

/-- A step that succeeds and makes no call can be taken by computing where it leads. -/
theorem step {action : Action State α} {next : α → Action State β} {value : α} {after : State}
    {post : Except Failure β → List Git.Call → State → Prop}
    (houtcome : action.outcome host before = (.ok value, after))
    (hcalls : KeepsCalls.calls after = KeepsCalls.calls before)
    (h : Ensures (next value) host after post) : Ensures (action >>= next) host before post := by
  unfold Ensures
  rw [outcome_bind, houtcome]
  obtain ⟨calls, hmore, hpost⟩ := h
  exact ⟨calls, by rw [hmore, hcalls], hpost⟩

/-- Changing the value of a result changes nothing else. -/
theorem map {action : Action State α} {change : α → β}
    {post : Except Failure β → List Git.Call → State → Prop}
    (h : Ensures action host before fun result => post (result.map change)) :
    Ensures (change <$> action) host before post := by
  rw [map_eq_pure_bind]
  exact bind h (fun _ calls _ hpost => pure (by rwa [List.append_nil])) fun _ _ _ hpost => hpost

/-- Forgetting the value of a result changes nothing else. -/
theorem discard {action : Action State α}
    {post : Except Failure PUnit → List Git.Call → State → Prop}
    (h : Ensures action host before fun result => post (result.map fun _ => ⟨⟩)) :
    Ensures (Functor.discard action) host before post :=
  map h

section Operations

variable {before : Workspace}

/-- An attempt gives the result of the operation as a value. -/
theorem attempt {operation : Operation α}
    {post : Except Failure (Except Failure α) → List Git.Call → Workspace → Prop}
    (h : Ensures operation host before fun result => post (.ok result)) :
    Ensures operation.attempt host before post :=
  h

/-- What follows an attempt is given the result, whether it is a success or not. -/
theorem bind_attempt {operation : Operation α} {next : Except Failure α → Operation β}
    {post : Except Failure β → List Git.Call → Workspace → Prop}
    {middle : Except Failure α → List Git.Call → Workspace → Prop}
    (first : Ensures operation host before middle)
    (rest : ∀ result calls after, middle result calls after →
      Ensures (next result) host after fun last more => post last (calls ++ more)) :
    Ensures (operation.attempt >>= next) host before post := by
  obtain ⟨calls, hcalls, hmiddle⟩ := first
  obtain ⟨more, hmore, hpost⟩ := rest _ _ _ hmiddle
  unfold Ensures
  rw [outcome_bind]
  refine ⟨calls ++ more, ?_, hpost⟩
  rw [List.reverse_append, List.append_assoc, ← hcalls]
  exact hmore

/-- A result that is there already is given without a call. -/
theorem ofExcept {result : Except Failure α}
    {post : Except Failure α → List Git.Call → Workspace → Prop} (h : post result [] before) :
    Ensures (Operation.ofExcept result) host before post := by
  cases result with
  | ok value => exact pure h
  | error failure => exact throw h

/-- A report adds to the log alone. -/
theorem report {level : Log.Level} {topic : Log.Topic} {text : String}
    {post : Except Failure Unit → List Git.Call → Workspace → Prop}
    (h : post (.ok ()) [] { before with log := ⟨level, topic, text⟩ :: before.log }) :
    Ensures (Operation.report level topic text) host before post :=
  ⟨[], rfl, h⟩

/-- An edit makes no call. -/
theorem edit {change : FileSystem.Edit α}
    {post : Except Failure α → List Git.Call → Workspace → Prop}
    (h : post ((change.run.run before.files).1.mapError .fileSystem) []
      { before with files := (change.run.run before.files).2 }) :
    Ensures (Operation.edit change) host before post := by
  refine ⟨[], ?_, ?_⟩ <;> rw [outcome_edit]
  · rfl
  · exact h

/-- An operation ensures as a task what it ensures by itself, and leaves the repository alone. -/
theorem ofOperation {operation : Operation α} {before : Repository × Workspace}
    {post : Except Failure α → List Git.Call → Repository × Workspace → Prop}
    (h : Ensures operation host before.2 fun result calls after =>
      post result calls (before.1, after)) :
    Ensures (Task.ofOperation operation) host before post :=
  h

end Operations

end Ensures

/-- Every call that an action makes, wherever it is carried out, has a property. -/
def Makes [KeepsCalls State] (action : Action State α) (property : Git.Call → Prop) : Prop :=
  ∀ host before, Ensures action host before fun _ calls _ => ∀ call ∈ calls, property call

namespace Makes

variable [KeepsCalls State] {property : Git.Call → Prop}

/-- A property of all calls is weakened call by call. -/
theorem mono {action : Action State α} {weaker : Git.Call → Prop} (h : Makes action property)
    (hweaker : ∀ call, property call → weaker call) : Makes action weaker :=
  fun host before => (h host before).mono fun _ _ _ hcalls call hcall =>
    hweaker call (hcalls call hcall)

/-- An action that makes no call has every property of calls. -/
theorem silent {action : Action State α}
    (h : ∀ host before,
      KeepsCalls.calls (action.outcome host before).2 = KeepsCalls.calls before) :
    Makes action property :=
  fun host before => ⟨[], h host before, by simp⟩

/-- Giving a value makes no call. -/
theorem pure {value : α} : Makes (Pure.pure value : Action State α) property :=
  silent fun _ _ => rfl

/-- Failing makes no call. -/
theorem throw {failure : Failure} :
    Makes (MonadExcept.throw failure : Action State α) property :=
  silent fun _ _ => rfl

/-- The calls of two actions in turn are the calls of both. -/
theorem bind {action : Action State α} {next : α → Action State β}
    (first : Makes action property) (rest : ∀ value, Makes (next value) property) :
    Makes (action >>= next) property := by
  intro host before
  refine Ensures.bind (first host before) ?_ fun _ _ _ hcalls => hcalls
  intro value calls after hcalls
  refine (rest value host after).mono fun _ more _ hmore => ?_
  simpa only [List.forall_mem_append] using ⟨hcalls, hmore⟩

/-- Changing the value of a result makes no call. -/
theorem map {action : Action State α} {change : α → β} (h : Makes action property) :
    Makes (change <$> action) property :=
  fun host before => Ensures.map (h host before)

/-- Forgetting the value of a result makes no call. -/
theorem discard {action : Action State α} (h : Makes action property) :
    Makes (Functor.discard action) property :=
  map h

/-- A choice between two actions makes the calls of one of them. -/
theorem ite {condition : Prop} [Decidable condition] {action other : Action State α}
    (h : condition → Makes action property) (hother : ¬ condition → Makes other property) :
    Makes (if condition then action else other) property := by
  split
  · exact h ‹_›
  · exact hother ‹_›

/-- An attempt makes the calls of what is attempted. -/
theorem attempt {operation : Operation α} (h : Makes operation property) :
    Makes operation.attempt property :=
  fun host before => Ensures.attempt (h host before)

/-- Giving a result that is there already makes no call. -/
theorem ofExcept {result : Except Failure α} : Makes (Operation.ofExcept result) property :=
  fun _ _ => Ensures.ofExcept (by simp)

/-- A report makes no call. -/
theorem report {level : Log.Level} {topic : Log.Topic} {text : String} :
    Makes (Operation.report level topic text) property :=
  silent fun _ _ => rfl

/-- An edit makes no call. -/
theorem edit {change : FileSystem.Edit α} : Makes (Operation.edit change) property :=
  fun _ _ => Ensures.edit (by simp)

/-- An operation makes the same calls as a task. -/
theorem ofOperation {operation : Operation α} (h : Makes operation property) :
    Makes (Task.ofOperation operation) property :=
  fun host before => h host before.2

end Makes

/-- Whether an action fails wherever it starts. -/
def Action.Fails (action : Action State α) (host : Host) : Prop :=
  ∀ before, ∃ failure, (action.outcome host before).1 = .error failure

namespace Action.Fails

/-- What follows a failure is left out. -/
theorem first {action : Action State α} {next : α → Action State β} (h : action.Fails host) :
    Action.Fails (action >>= next) host := by
  intro before
  obtain ⟨failure, hfailure⟩ := h before
  rw [outcome_bind_of_error hfailure]
  exact ⟨failure, rfl⟩

/-- What ends in a failure fails. -/
theorem behind {action : Action State α} {next : α → Action State β}
    (h : ∀ value, (next value).Fails host) : Action.Fails (action >>= next) host := by
  intro before
  rw [outcome_bind]
  rcases action.outcome host before with ⟨failure | value, after⟩
  · exact ⟨failure, rfl⟩
  · exact h value after

/-- Forgetting the value of what fails does not help. -/
theorem discard {action : Action State α} (h : action.Fails host) :
    Action.Fails (Functor.discard action) host := by
  intro before
  obtain ⟨failure, hfailure⟩ := h before
  rw [outcome_discard, hfailure]
  exact ⟨failure, rfl⟩

/-- An operation that fails is a task that fails. -/
theorem ofOperation {operation : Operation α} (h : Action.Fails operation host) :
    Action.Fails (Task.ofOperation operation) host :=
  fun before => h before.2

end Action.Fails

end WorkingCopies
