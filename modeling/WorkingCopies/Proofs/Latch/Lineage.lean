import WorkingCopies.Proofs.Latch

/-!
# Latches and their copies

Latches are made, copied and used in any order. A latch is closed exactly if something that was run
under it succeeded, or, before it was copied, something that was run under the latch it is a copy
of. A copy takes over what its source has come to by then, and from there on each goes its own way.
-/

namespace WorkingCopies.Latch

variable {latches : List Latch} {latch : Latch} {steps : List Step} {step : Step}
  {outcome : Except Failure Unit} {time index : Nat}

/-! ## Several latches -/

/-- Whether one of several latches is there and closed. -/
def ClosedIn (latches : List Latch) (index : Nat) : Prop := latches[index]? = some ⟨true⟩

instance : Decidable (ClosedIn latches index) := inferInstanceAs (Decidable (_ = _))

/-- Among no latches none is closed. -/
theorem not_closedIn_nil : ¬ ClosedIn [] index := nofun

/-- A closed latch is there. -/
theorem ClosedIn.lt_length (h : ClosedIn latches index) : index < latches.length :=
  (List.getElem?_eq_some_iff.mp h).1

/-- A latch that is not there counts as open. -/
theorem getD_eq_closed_iff : latches.getD index {} = ⟨true⟩ ↔ ClosedIn latches index := by
  rw [ClosedIn, List.getD_eq_getElem?_getD]
  cases latches[index]? <;> simp

/-- A latch that is added comes with its state, and the others stay as they are. -/
theorem closedIn_append_singleton :
    ClosedIn (latches ++ [latch]) index ↔
      ClosedIn latches index ∨ index = latches.length ∧ latch = ⟨true⟩ := by
  rcases Nat.lt_trichotomy index latches.length with hlt | rfl | hgt
  · simp [ClosedIn, List.getElem?_append_left hlt, Nat.ne_of_lt hlt]
  · simp [ClosedIn]
  · have hbefore : latches[index]? = none := List.getElem?_eq_none (Nat.le_of_lt hgt)
    have hafter : (latches ++ [latch])[index]? = none := by
      rw [List.getElem?_eq_none_iff, List.length_append]
      exact hgt
    simp [ClosedIn, hbefore, hafter, Nat.ne_of_gt hgt]

/-- A latch that is set has the state that it is set to, and the others stay as they are. -/
theorem closedIn_set {used : Nat} :
    ClosedIn (latches.set used latch) index ↔
      if used = index then index < latches.length ∧ latch = ⟨true⟩ else ClosedIn latches index := by
  rw [ClosedIn, List.getElem?_set]
  split
  case isTrue heq => subst heq; simp
  case isFalse hne => rfl

/-! ## One step -/

/-- Whether a step adds a latch. -/
def Step.adds : Step → Bool
  | create => true
  | copy _ => true
  | attempt _ _ => false

/-- What is run under a latch has only one way to succeed. -/
theorem isOk_iff : outcome.isOk = true ↔ outcome = .ok () := by
  cases outcome <;> simp [Except.isOk, Except.toBool]

/-- Under a closed latch nothing is run, and under an open one a success closes it. -/
theorem Step.run_attempt :
    (Step.attempt index outcome).run latches =
      if ClosedIn latches index then (latches.set index ⟨true⟩, some ⟨false, .ok ()⟩)
      else (latches.set index ⟨outcome.isOk⟩, some ⟨true, outcome⟩) := by
  have honce := run_once (latches.getD index {}) (noted outcome) false
  simp only [Step.run, honce, ← getD_eq_closed_iff]
  cases latches.getD index {} with
  | mk isClosed => cases isClosed <;> rfl

/-- A step leaves as many latches as there were, and one more where it adds one. -/
theorem Step.length_run : (step.run latches).1.length = latches.length + step.adds.toNat := by
  cases step with
  | create => exact List.length_append
  | copy source => exact List.length_append
  | attempt used outcome => exact List.length_set

/-- A step leaves every latch alone but the one that it runs something under. -/
theorem Step.run_getElem?_of_ne (h : latches[index]? = some latch)
    (hother : ∀ outcome, step ≠ .attempt index outcome) :
    (step.run latches).1[index]? = some latch := by
  have hlt : index < latches.length := (List.getElem?_eq_some_iff.mp h).1
  cases step with
  | create => exact (List.getElem?_append_left hlt).trans h
  | copy source => exact (List.getElem?_append_left hlt).trans h
  | attempt used outcome =>
    have hne : used ≠ index := by
      rintro rfl
      exact hother outcome rfl
    exact (List.getElem?_set_ne hne).trans h

/-- A latch is closed behind a step if it was so before, if the step ran something under it that
succeeded, or if the step added it as a copy of a closed one. -/
theorem Step.closedIn_run :
    ClosedIn (step.run latches).1 index ↔
      ClosedIn latches index ∨
      (step = .attempt index (.ok ()) ∧ index < latches.length ∧
        ∃ result, (step.run latches).2 = some ⟨true, result⟩) ∨
      ∃ source, (step = .copy source ∧ index = latches.length) ∧ ClosedIn latches source := by
  cases step with
  | create => simp [run, closedIn_append_singleton]
  | copy source =>
    show ClosedIn (latches ++ [latches.getD source {}]) index ↔ _
    rw [closedIn_append_singleton, getD_eq_closed_iff]
    simp [and_assoc]
  | attempt used outcome =>
    rw [run_attempt]
    by_cases hused : used = index
    · subst hused
      -- A latch that was closed stays so without a run, hence the report tells who closed it.
      by_cases hclosed : ClosedIn latches used
      · simp [hclosed, closedIn_set, hclosed.lt_length]
      · simp [hclosed, closedIn_set, isOk_iff, and_comm]
    · split <;> simp [closedIn_set, hused]

/-! ## A whole script -/

/-- The latches at every moment of a script: those it starts with, and those that each step
leaves. -/
def moments (latches : List Latch) (steps : List Step) : List (List Latch) :=
  latches :: (Step.runAll latches steps).map Prod.fst

/-- The latches after so many steps of a script that starts with none. -/
def latchesAt (steps : List Step) (time : Nat) : List Latch := (moments [] steps).getD time []

/-- The report on one of its steps, which are counted from zero. -/
def reportAt (steps : List Step) (time : Nat) : Option Report :=
  (Step.runAll [] steps)[time]?.bind Prod.snd

/-- The number of latches that so many of its steps add. -/
def countAt (steps : List Step) (time : Nat) : Nat := (steps.take time).countP Step.adds

/-- One more step adds a latch or none. -/
theorem countAt_succ (h : steps[time]? = some step) :
    countAt steps (time + 1) = countAt steps time + step.adds.toNat := by
  rw [countAt, List.take_add_one, h, Option.toList_some, List.countP_append, List.countP_singleton]
  cases step.adds <;> rfl

/-- A step goes by the latches that are there at its moment. -/
theorem exists_moment (latches : List Latch) (h : steps[time]? = some step) :
    ∃ before, (moments latches steps)[time]? = some before ∧
      (Step.runAll latches steps)[time]? = some (step.run before) := by
  induction steps generalizing latches time with
  | nil => simp at h
  | cons first rest ih =>
    cases time with
    | zero =>
      obtain rfl : first = step := by simpa using h
      exact ⟨latches, rfl, rfl⟩
    | succ time => exact ih (first.run latches).1 h

/-- What a step of a script comes to goes by the latches at its moment. -/
theorem runAll_getElem? (h : steps[time]? = some step) :
    (Step.runAll [] steps)[time]? = some (step.run (latchesAt steps time)) := by
  obtain ⟨before, hbefore, hafter⟩ := exists_moment [] h
  rw [latchesAt, List.getD_eq_getElem?_getD, hbefore, hafter, Option.getD_some]

/-- The latches behind a step are those that it leaves of the latches at its moment. -/
theorem latchesAt_succ (h : steps[time]? = some step) :
    latchesAt steps (time + 1) = (step.run (latchesAt steps time)).1 := by
  rw [latchesAt, moments, List.getD_cons_succ, List.getD_eq_getElem?_getD, List.getElem?_map,
    runAll_getElem? h, Option.map_some, Option.getD_some]

/-- What is reported on a step is what it comes to with the latches at its moment. -/
theorem reportAt_eq (h : steps[time]? = some step) :
    reportAt steps time = (step.run (latchesAt steps time)).2 := by
  rw [reportAt, runAll_getElem? h, Option.bind_some]

/-- There are as many latches as have been added. -/
theorem length_latchesAt (h : time ≤ steps.length) :
    (latchesAt steps time).length = countAt steps time := by
  induction time with
  | zero => rfl
  | succ time ih =>
    have hstep : steps[time]? = some steps[time] := List.getElem?_eq_getElem h
    rw [latchesAt_succ hstep, Step.length_run, ih (Nat.le_of_succ_le h), countAt_succ hstep]

/-- Something is run under a latch that is there, and succeeds. -/
def SucceedsAt (steps : List Step) (time index : Nat) : Prop :=
  steps[time]? = some (.attempt index (.ok ())) ∧ index < countAt steps time ∧
    ∃ result, reportAt steps time = some ⟨true, result⟩

/-- A latch is added as a copy of another one. -/
def CopiesAt (steps : List Step) (time source index : Nat) : Prop :=
  steps[time]? = some (.copy source) ∧ index = countAt steps time

/-- By some time the thing that a latch stands for is done. -/
inductive IsDone (steps : List Step) : (time index : Nat) → Prop where
  /-- It was done under the latch itself. -/
  | run {earlier time index : Nat} (hearlier : earlier < time)
      (hrun : SucceedsAt steps earlier index) : IsDone steps time index
  /-- The latch is a copy, and the thing was done for its source when the copy was made. -/
  | copied {earlier time source index : Nat} (hearlier : earlier < time)
      (hcopy : CopiesAt steps earlier source index) (hsource : IsDone steps earlier source) :
      IsDone steps time index

/-- Before the first step nothing is done. -/
theorem not_isDone_zero : ¬ IsDone steps 0 index := by
  intro h
  cases h with
  | run hearlier hrun => exact Nat.not_lt_zero _ hearlier
  | copied hearlier hcopy hsource => exact Nat.not_lt_zero _ hearlier

/-- What one more step can get done. -/
theorem isDone_succ_iff :
    IsDone steps (time + 1) index ↔
      IsDone steps time index ∨ SucceedsAt steps time index ∨
        ∃ source, CopiesAt steps time source index ∧ IsDone steps time source := by
  constructor
  · intro h
    cases h with
    | run hearlier hrun =>
      rcases Nat.lt_succ_iff_lt_or_eq.mp hearlier with hlt | rfl
      · exact .inl (.run hlt hrun)
      · exact .inr (.inl hrun)
    | copied hearlier hcopy hsource =>
      rcases Nat.lt_succ_iff_lt_or_eq.mp hearlier with hlt | rfl
      · exact .inl (.copied hlt hcopy hsource)
      · exact .inr (.inr ⟨_, hcopy, hsource⟩)
  · rintro (h | hrun | ⟨source, hcopy, hsource⟩)
    · cases h with
      | run hearlier hrun => exact .run (Nat.lt_succ_of_lt hearlier) hrun
      | copied hearlier hcopy hsource => exact .copied (Nat.lt_succ_of_lt hearlier) hcopy hsource
    · exact .run (Nat.lt_succ_self time) hrun
    · exact .copied (Nat.lt_succ_self time) hcopy hsource

/-- The closed latches are those whose thing is done. The induction is on the steps taken, for all
latches at once, since a copy takes over the state of another one. -/
theorem closedIn_latchesAt_iff (h : time ≤ steps.length) :
    ClosedIn (latchesAt steps time) index ↔ IsDone steps time index := by
  induction time generalizing index with
  | zero => exact iff_of_false not_closedIn_nil not_isDone_zero
  | succ time ih =>
    have hbefore : time ≤ steps.length := Nat.le_of_succ_le h
    have hstep : steps[time]? = some steps[time] := List.getElem?_eq_getElem h
    rw [latchesAt_succ hstep, Step.closedIn_run, isDone_succ_iff, SucceedsAt, reportAt_eq hstep]
    simp only [CopiesAt, hstep, Option.some.injEq, length_latchesAt hbefore, ih hbefore]

/-- How the latches of a script remember what has been done. -/
structure Remembers (steps : List Step) : Prop where
  /-- There are as many latches as have been made and copied. -/
  length : ∀ time ≤ steps.length, (latchesAt steps time).length = countAt steps time
  /-- Closed are those whose thing is done, by a run under the latch or under one that it descends
  from. -/
  closed : ∀ time ≤ steps.length, ∀ index,
    ClosedIn (latchesAt steps time) index ↔ IsDone steps time index
  /-- What comes under a closed latch is not run, and whatever it is the result is a success. -/
  skips : ∀ time index outcome, steps[time]? = some (.attempt index outcome) →
    ClosedIn (latchesAt steps time) index → reportAt steps time = some ⟨false, .ok ()⟩
  /-- What comes under any other is run, and the result is its own. -/
  runs : ∀ time index outcome, steps[time]? = some (.attempt index outcome) →
    ¬ ClosedIn (latchesAt steps time) index → reportAt steps time = some ⟨true, outcome⟩
  /-- No latch changes but the one that something comes under. -/
  leaves : ∀ time step, steps[time]? = some step → ∀ index latch,
    (latchesAt steps time)[index]? = some latch → (∀ outcome, step ≠ .attempt index outcome) →
      (latchesAt steps (time + 1))[index]? = some latch

/-- In whatever order latches are made, copied and used, and whatever succeeds or fails under them,
they remember what has been done. -/
theorem remembers (steps : List Step) : Remembers steps where
  length _ h := length_latchesAt h
  closed _ h _ := closedIn_latchesAt_iff h
  skips time index outcome hstep hclosed := by
    rw [reportAt_eq hstep, Step.run_attempt, if_pos hclosed]
  runs time index outcome hstep hopen := by
    rw [reportAt_eq hstep, Step.run_attempt, if_neg hopen]
  leaves time step hstep index latch hlatch hother := by
    rw [latchesAt_succ hstep]
    exact Step.run_getElem?_of_ne hlatch hother

/-- A latch is copied before something succeeds under it and again after that: the first copy is
still open and the second one closed. -/
theorem remembers_of_two_copies :
    let failed : Except Failure Unit := .error (.commandFailed "git fetch --tags" "")
    let steps : List Step := [.create, .attempt 0 failed, .copy 0, .attempt 0 (.ok ()), .copy 0,
      .attempt 1 failed, .attempt 2 failed]
    reportAt steps 5 = some ⟨true, failed⟩ ∧ ¬ IsDone steps 7 1 ∧
      reportAt steps 6 = some ⟨false, .ok ()⟩ ∧ IsDone steps 7 2 := by
  intro failed steps
  have h : Remembers steps := remembers steps
  refine ⟨h.runs 5 1 failed rfl (by decide), ?_, h.skips 6 2 failed rfl (by decide), ?_⟩
  · rw [← h.closed 7 (Nat.le_refl 7)]
    decide
  · rw [← h.closed 7 (Nat.le_refl 7)]
    decide

end WorkingCopies.Latch
