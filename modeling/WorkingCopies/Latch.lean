import WorkingCopies.Failure

/-!
# Latches

A latch remembers that something has been done once. What it guards runs until it succeeds for
the first time and never again after that; a failure leaves the latch open.
-/

namespace WorkingCopies

/-- Whether something has been done. -/
structure Latch where
  isClosed : Bool := false
  deriving Repr, DecidableEq, Inhabited

namespace Latch

/-- Run what the latch guards unless the latch is closed, and close it after a success. -/
def once {m : Type → Type} [Monad m] (latch : Latch) (run : m (Except Failure Unit)) :
    m (Except Failure Unit × Latch) :=
  if latch.isClosed then pure (.ok (), latch)
  else do
    match ← run with
    | .ok () => pure (.ok (), ⟨true⟩)
    | .error failure => pure (.error failure, latch)

/-- Something done with one of several latches, which are counted from zero. -/
inductive Step where
  /-- Add a new latch. -/
  | create
  /-- Add a copy of a latch. -/
  | copy (index : Nat)
  /-- Run something, known by its outcome, under a latch. -/
  | attempt (index : Nat) (outcome : Except Failure Unit)

/-- What became of something run under a latch. -/
structure Report where
  /-- Whether it was run at all. -/
  wasRun : Bool
  result : Except Failure Unit

/-- What a guarded run does here: it notes that it was run and has the given outcome. -/
def noted (outcome : Except Failure Unit) : StateM Bool (Except Failure Unit) := do
  set true
  return outcome

/-- Take one step. -/
def Step.run (latches : List Latch) : Step → List Latch × Option Report
  | create => (latches ++ [{}], none)
  | copy index => (latches ++ [latches.getD index {}], none)
  | attempt index outcome =>
    let ((result, latch), wasRun) := ((latches.getD index {}).once (noted outcome)).run false
    (latches.set index latch, some ⟨wasRun, result⟩)

/-- Take steps one after the other, and keep the latches and the report after each. -/
def Step.runAll (latches : List Latch) : List Step → List (List Latch × Option Report)
  | [] => []
  | step :: steps =>
    let after := step.run latches
    after :: Step.runAll after.1 steps

end Latch

end WorkingCopies
