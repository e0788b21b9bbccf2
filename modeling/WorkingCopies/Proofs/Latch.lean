import WorkingCopies.Latch

/-!
# What a latch lets through

A latch decides by its own state alone: closed, it leaves the run out and succeeds; open, it lets
the run through, passes its result on and closes if that is a success.
-/

namespace WorkingCopies

/-- What comes of a run under a latch, and the latch and the state behind it. -/
theorem Latch.run_once {State : Type} (latch : Latch) (run : StateM State (Except Failure Unit))
    (state : State) :
    (latch.once run).run state =
      if latch.isClosed then ((.ok (), latch), state)
      else (((run.run state).1, ⟨(run.run state).1.isOk⟩), (run.run state).2) := by
  obtain ⟨isClosed⟩ := latch
  cases isClosed with
  | true => rfl
  | false =>
    rw [Latch.once, if_neg Bool.false_ne_true, StateT.run_bind]
    show (match run.run state with | (result, after) => _) = _
    cases run.run state with
    | mk result after => cases result <;> rfl

end WorkingCopies
