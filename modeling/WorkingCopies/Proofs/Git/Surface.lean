import WorkingCopies.Proofs.Git.Attempt

/-!
# Failures that come to the surface

Some failures of git end an operation and become its result, others are looked at and forgotten.
`Surfaces` says of an action that the failures of some commands are of the first sort.
-/

namespace WorkingCopies

open Git (Call Command)

variable {State α β : Type} [KeepsCalls State] {names : List String}

/-- A call of a plain command whose failure, if it fails, is a result. -/
def Git.Call.Surfaces (call : Call) (result : Except Failure α) : Prop :=
  (∃ folder, call.Runs ((Command.plain call.arguments).within folder)) ∧
    (call.succeeded = false → ∃ failure,
      (Command.plain call.arguments).conclude call.outcome = .error failure ∧
        result = .error failure)

/-- A call that gives the failure of a part gives that of the whole. -/
theorem Git.Call.Surfaces.of_error {call : Call} {failure : Failure}
    (h : call.Surfaces (.error failure : Except Failure α)) :
    call.Surfaces (.error failure : Except Failure β) := by
  refine ⟨h.1, fun hfailed => ?_⟩
  obtain ⟨cause, hcause, hresult⟩ := h.2 hfailed
  exact ⟨cause, hcause, congrArg Except.error (Except.error.inj hresult)⟩

/-- A call behind which there was a success has not failed. -/
theorem Git.Call.Surfaces.of_ok {call : Call} {value : α} {result : Except Failure β}
    (h : call.Surfaces (.ok value : Except Failure α)) : call.Surfaces result := by
  refine ⟨h.1, fun hfailed => ?_⟩
  obtain ⟨_, -, hresult⟩ := h.2 hfailed
  cases hresult

/-- A change of the value leaves failures as they are. -/
theorem Git.Call.Surfaces.map {call : Call} {result : Except Failure α} {change : α → β}
    (h : call.Surfaces result) : call.Surfaces (result.map change) := by
  refine ⟨h.1, fun hfailed => ?_⟩
  obtain ⟨failure, hfailure, rfl⟩ := h.2 hfailed
  exact ⟨failure, hfailure, rfl⟩

/-- A failure of one of some commands is the result of the action. -/
def Surfaces (names : List String) (action : Action State α) : Prop :=
  ∀ host before, Ensures action host before fun result calls _ =>
    ∀ call ∈ calls, (∃ name ∈ names, call.arguments.head? = some name) → call.Surfaces result

namespace Surfaces

/-- An action that makes no call of these commands hides no failure of theirs. -/
theorem of_makes {action : Action State α}
    (h : Makes action fun call => ∀ name ∈ names, call.arguments.head? ≠ some name) :
    Surfaces names action := by
  intro host before
  refine (h host before).mono fun _ calls _ hcalls call hcall => ?_
  intro hnamed
  obtain ⟨name, hname, hhead⟩ := hnamed
  exact absurd hhead (hcalls call hcall name hname)

/-- Where the failures of two actions come to the surface, so do those of the two in turn. -/
theorem bind {action : Action State α} {next : α → Action State β}
    (first : Surfaces names action) (rest : ∀ value, Surfaces names (next value)) :
    Surfaces names (action >>= next) := by
  intro host before
  refine Ensures.bind (first host before) ?_ ?_
  · intro value calls after hcalls
    refine (rest value host after).mono fun result more _ hmore call hcall hnamed => ?_
    rcases List.mem_append.mp hcall with hcall | hcall
    · exact (hcalls call hcall hnamed).of_ok
    · exact hmore call hcall hnamed
  · exact fun failure calls _ hcalls call hcall hnamed => (hcalls call hcall hnamed).of_error

/-- Giving a value hides no failure. -/
theorem pure {value : α} : Surfaces names (Pure.pure value : Action State α) :=
  of_makes Makes.pure

/-- Changing the value hides no failure. -/
theorem map {action : Action State α} {change : α → β} (h : Surfaces names action) :
    Surfaces names (change <$> action) := by
  rw [map_eq_pure_bind]
  exact bind h fun _ => pure

/-- Forgetting the value hides no failure. -/
theorem discard {action : Action State α} (h : Surfaces names action) :
    Surfaces names (Functor.discard action) :=
  map h

/-- The failure of a plain command is the result of running it. -/
theorem execute {folder : Path} {arguments : List String} :
    Surfaces names (Git.execute folder arguments) := by
  intro host before
  refine ensures_run (by simp) ?_
  intro git _ call hcall other hother _
  obtain rfl := List.mem_singleton.mp hother
  have hruns := ((Command.plain arguments).within folder).callBy_runs git before
  rw [← hcall] at hruns
  have harguments : other.arguments = arguments := by
    rw [hruns.arguments, Command.map_text_plain_within]
  refine ⟨⟨folder, by rwa [harguments]⟩, fun hfailed => ?_⟩
  rw [harguments]
  obtain ⟨failure, hfailure⟩ : ∃ failure,
      (Command.plain arguments).conclude other.outcome = .error failure :=
    Command.exists_failure hfailed
  exact ⟨failure, hfailure, hfailure⟩

end Surfaces

end WorkingCopies
