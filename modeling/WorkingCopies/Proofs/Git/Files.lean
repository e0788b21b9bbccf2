import WorkingCopies.Proofs.Git.MadeOf

/-!
# Files that only git writes

Every call remembers the files before and after it. Where each call starts with the files that the
one before it left, and the last one leaves what is there in the end, nothing but git has written a
file on the way. This is so for whatever is made of commands.
-/

namespace WorkingCopies

open Git (Call Command)

/-- Whether calls of git, one after the other, make some files of others, with nothing in between. -/
def FileSystem.Carried : FileSystem → List Call → FileSystem → Prop
  | before, [], after => after = before
  | before, call :: calls, after => call.before = before ∧ call.after.Carried calls after

/-- What calls make of files, more calls can take up. -/
theorem FileSystem.Carried.append {before between after : FileSystem} {calls more : List Call}
    (h : before.Carried calls between) (hmore : between.Carried more after) :
    before.Carried (calls ++ more) after := by
  induction calls generalizing before with
  | nil =>
    cases h
    exact hmore
  | cons call calls ih => exact ⟨h.1, ih h.2⟩

/-- Whether calls of git, one after the other, make some files of others, with changes of some kind in
between. -/
def FileSystem.CarriedBy (change : FileSystem → FileSystem → Prop) :
    FileSystem → List Call → FileSystem → Prop
  | before, [], after => change before after
  | before, call :: calls, after =>
    change before call.before ∧ call.after.CarriedBy change calls after

/-- Without calls one change makes the files of the others. -/
@[simp] theorem FileSystem.carriedBy_nil {change : FileSystem → FileSystem → Prop}
    {before after : FileSystem} : before.CarriedBy change [] after ↔ change before after := Iff.rfl

/-- Where nothing happens in between, nothing but what is allowed happens. -/
theorem FileSystem.Carried.carriedBy {change : FileSystem → FileSystem → Prop}
    {before after : FileSystem} {calls : List Call} (hrefl : ∀ files, change files files)
    (h : before.Carried calls after) : before.CarriedBy change calls after := by
  induction calls generalizing before with
  | nil =>
    cases h
    exact hrefl after
  | cons call calls ih =>
    obtain ⟨rfl, hrest⟩ := h
    exact ⟨hrefl call.before, ih hrest⟩

namespace FileSystem.CarriedBy

variable {change weaker : FileSystem → FileSystem → Prop} {before between after : FileSystem}
  {calls more : List Call}

/-- Changes of some kind are changes of a wider kind. -/
theorem mono (h : before.CarriedBy change calls after)
    (hweaker : ∀ files later, change files later → weaker files later) :
    before.CarriedBy weaker calls after := by
  induction calls generalizing before with
  | nil => exact hweaker _ _ h
  | cons call calls ih => exact ⟨hweaker _ _ h.1, ih h.2⟩

/-- What calls make of files, more calls can take up. -/
theorem append
    (htrans : ∀ first second third, change first second → change second third → change first third)
    (h : before.CarriedBy change calls between) (hmore : between.CarriedBy change more after) :
    before.CarriedBy change (calls ++ more) after := by
  induction calls generalizing before with
  | cons call calls ih => exact ⟨h.1, ih h.2⟩
  | nil =>
    -- the last change before the calls and the first one of them happen in one
    cases more with
    | nil => exact htrans _ _ _ h hmore
    | cons call more => exact ⟨htrans _ _ _ h hmore.1, hmore.2⟩

end FileSystem.CarriedBy

/-- A call starts from the files that it finds. -/
theorem Git.Command.before_callBy (command : Command) (git : Git) (workspace : Workspace) :
    (command.callBy git workspace).before = workspace.files :=
  before_attempt git workspace _ _

/-- An operation that is made of commands leaves the files to git. -/
theorem MadeOf.ensures_carried {allowed : Command → Prop} {α : Type} {operation : Operation α}
    (h : MadeOf allowed operation) (host : Host) (before : Workspace) :
    Ensures operation host before fun _ calls after =>
      before.files.Carried calls after.files := by
  induction h generalizing before with
  | pure value => exact Ensures.pure rfl
  | throw failure => exact Ensures.throw rfl
  | bind _ _ first rest =>
    refine Ensures.bind (first before) ?_ fun _ _ _ hcarried => hcarried
    intro value calls after hcarried
    exact (rest value after).mono fun _ _ _ hmore => hcarried.append hmore
  | attempt _ ih => exact Ensures.attempt (ih before)
  | report level topic text => exact Ensures.report rfl
  | environment => exact ⟨[], rfl, rfl⟩
  | run _ =>
    apply ensures_run
    · exact fun _ => rfl
    · intro git _ call hcall
      subst hcall
      exact ⟨Command.before_callBy _ git before, rfl⟩

/-- An operation that is made of commands changes nothing between them. -/
theorem MadeOf.ensures_carriedBy {allowed : Command → Prop} {α : Type} {operation : Operation α}
    {change : FileSystem → FileSystem → Prop} {host : Host} (h : MadeOf allowed operation)
    (hrefl : ∀ files, change files files) (before : Workspace) :
    Ensures operation host before fun _ calls after =>
      before.files.CarriedBy change calls after.files :=
  (h.ensures_carried host before).mono fun _ _ _ hcarried => hcarried.carriedBy hrefl

/-- What git keeps of the files, an operation that is made of commands keeps. -/
theorem MadeOf.ensures_keeps {allowed : Command → Prop} {α : Type} {operation : Operation α}
    {kept : FileSystem → Prop} {host : Host} (h : MadeOf allowed operation)
    (hgit : ∀ git, host.git = some git → ∀ calls files request, kept files →
      kept (git.leave calls files request))
    {before : Workspace} (hbefore : kept before.files) :
    Ensures operation host before fun _ _ after => kept after.files := by
  induction h generalizing before with
  | pure value => exact Ensures.pure hbefore
  | throw failure => exact Ensures.throw hbefore
  | bind _ _ first rest =>
    exact Ensures.bind (first hbefore) (fun value _ _ hkept => rest value hkept) fun _ _ _ hkept =>
      hkept
  | attempt _ ih => exact Ensures.attempt (ih hbefore)
  | report level topic text => exact Ensures.report hbefore
  | environment => exact ⟨[], rfl, hbefore⟩
  | run _ =>
    refine ensures_run (fun _ => hbefore) fun git hinstalled call hcall => ?_
    subst hcall
    show kept (Git.attempt git before _ _).after
    rcases Git.after_attempt git before _ _ with hafter | ⟨location, hafter⟩
    · rw [hafter]
      exact hbefore
    · rw [hafter]
      exact hgit git hinstalled _ _ _ hbefore

end WorkingCopies
