import WorkingCopies.Proofs.Git.MadeOf

/-!
# What git can go by along its calls

Every call adds to what git can go by. A statement about the calls of an operation may therefore
speak of each call together with what git could go by when it was made, and such a statement is
carried from the parts of an operation to the whole.
-/

namespace WorkingCopies

open Git (Call Command)

namespace Git.View

/-- What git can go by behind some calls, the first one first. -/
def behindAll (view : View) (calls : List Call) : View := calls.foldl behind view

/-- Whether calls made one after the other have a property, each of them together with what git can
go by when it is made. -/
def Along (property : View → Call → Prop) : View → List Call → Prop
  | _, [] => True
  | view, call :: calls => property view call ∧ Along property (view.behind call) calls

/-- Whether some calls are all that lies between one thing that git can go by and another, and have
a property along the way. -/
structure LeadsBy (property : View → Call → Prop) (view : View) (calls : List Call) (last : View) :
    Prop where
  last_eq : last = view.behindAll calls
  along : view.Along property calls

variable {property weaker : View → Call → Prop} {view last : View} {calls more : List Call}

/-- Behind two lists of calls git goes by what it goes by behind the second one. -/
theorem behindAll_append : view.behindAll (calls ++ more) = (view.behindAll calls).behindAll more :=
  List.foldl_append

/-- The calls behind which git goes by something are added to those before. -/
theorem fst_behindAll : (view.behindAll calls).1 = calls.reverse ++ view.1 := by
  induction calls generalizing view with
  | nil => rfl
  | cons call calls ih =>
    rw [List.reverse_cons, List.append_assoc]
    exact ih

/-- A property that holds along two lists of calls holds along both in turn. -/
theorem along_append :
    view.Along property (calls ++ more) ↔
      view.Along property calls ∧ (view.behindAll calls).Along property more := by
  induction calls generalizing view with
  | nil => simp [Along, behindAll]
  | cons call calls ih =>
    rw [List.cons_append, Along, ih, Along, and_assoc]
    rfl

/-- A property that holds along calls holds of each of them where it is made. -/
theorem Along.of_split {earlier later : List Call} {call : Call} (h : view.Along property calls)
    (hsplit : calls = earlier ++ call :: later) : property (view.behindAll earlier) call := by
  subst hsplit
  exact (along_append.mp h).2.1

/-- A weaker property holds along the same calls. -/
theorem Along.mono (h : view.Along property calls)
    (hweaker : ∀ view call, property view call → weaker view call) : view.Along weaker calls := by
  induction calls generalizing view with
  | nil => trivial
  | cons call calls ih => exact ⟨hweaker _ _ h.1, ih h.2⟩

/-- What every call on the way keeps is the same in the end. -/
theorem Along.behindAll_eq {α : Type} {reading : View → α}
    (h : view.Along (fun view call => reading (view.behind call) = reading view) calls) :
    reading (view.behindAll calls) = reading view := by
  induction calls generalizing view with
  | nil => rfl
  | cons call calls ih => exact (ih h.2).trans h.1

/-- No calls lead nowhere. -/
theorem LeadsBy.nil : view.LeadsBy property [] view := ⟨rfl, trivial⟩

/-- One call leads behind itself. -/
theorem LeadsBy.single {call : Call} (h : property view call) :
    view.LeadsBy property [call] (view.behind call) := ⟨rfl, h, trivial⟩

/-- What some calls lead to, more calls lead on. -/
theorem LeadsBy.append {middle : View} (h : view.LeadsBy property calls middle)
    (hmore : middle.LeadsBy property more last) : view.LeadsBy property (calls ++ more) last := by
  obtain ⟨rfl, halong⟩ := h
  obtain ⟨rfl, hmore⟩ := hmore
  exact ⟨behindAll_append.symm, along_append.mpr ⟨halong, hmore⟩⟩

end Git.View

variable {α β : Type} {host : Host} {git : Git} {property : Git.View → Call → Prop}

/-- Two operations in turn make calls with a property along the way if each does. -/
theorem Ensures.bind_leadsBy {before : Workspace} {operation : Operation α}
    {next : α → Operation β}
    (first : Ensures operation host before fun _ calls after =>
      before.view.LeadsBy property calls after.view)
    (rest : ∀ value after, Ensures (next value) host after fun _ calls last =>
      after.view.LeadsBy property calls last.view) :
    Ensures (operation >>= next) host before fun _ calls last =>
      before.view.LeadsBy property calls last.view := by
  refine Ensures.bind first ?_ fun _ _ _ hfirst => hfirst
  intro value calls after hfirst
  exact (rest value after).mono fun _ _ _ hmore => hfirst.append hmore

/-- What is made of commands makes calls that have a property along the way if the call of each
command has it. -/
theorem MadeOf.ensures_leadsBy {allowed : Command → Prop} {operation : Operation α}
    (h : MadeOf allowed operation) (hgit : host.git = some git)
    (hcommand : ∀ command, allowed command → ∀ workspace : Workspace,
      property workspace.view (command.callBy git workspace)) (before : Workspace) :
    Ensures operation host before fun _ calls after =>
      before.view.LeadsBy property calls after.view := by
  induction h generalizing before with
  | pure value => exact Ensures.pure .nil
  | throw failure => exact Ensures.throw .nil
  | bind _ _ first rest => exact Ensures.bind_leadsBy (first before) fun value after => rest value after
  | attempt _ ih => exact Ensures.attempt (ih before)
  | report level topic text => exact Ensures.report .nil
  | environment => exact ⟨[], rfl, .nil⟩
  | run hallowed =>
    refine ensures_run (by simp [hgit]) ?_
    intro other hother call hcall
    subst hcall
    obtain rfl : git = other := Option.some.inj (hgit.symm.trans hother)
    exact ⟨rfl, hcommand _ hallowed before, trivial⟩

end WorkingCopies
