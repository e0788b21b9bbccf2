import WorkingCopies.Proofs.FileSystem.Walk

/-!
# What a change of the files ensures

A change may fail after part of it is done, so a statement about it speaks of its result and of the
files that it leaves. Making folders and writing files removes nothing: what was there is as it was,
but for files that were written over.
-/

namespace WorkingCopies.FileSystem

variable {α β : Type} {files : FileSystem}

/-- The result of a change, and the files that it leaves. -/
def Edit.outcome (change : Edit α) (files : FileSystem) : Except Fault α × FileSystem :=
  change.run.run files

/-- The result of a change and the files that it leaves have a property. -/
def Edit.Ensures (change : Edit α) (files : FileSystem)
    (post : Except Fault α → FileSystem → Prop) : Prop :=
  post (change.outcome files).1 (change.outcome files).2

namespace Edit

variable {post : Except Fault α → FileSystem → Prop}

/-- What follows a change starts where the change ended, and is left out when it failed. -/
theorem outcome_bind (change : Edit α) (next : α → Edit β) (files : FileSystem) :
    Edit.outcome (change >>= next) files =
      match change.outcome files with
      | (.ok value, after) => (next value).outcome after
      | (.error fault, after) => (.error fault, after) := by
  simp only [outcome, ExceptT.run_bind, StateT.run_bind]
  show (match change.run.run files with | (result, after) => _) = _
  cases change.run.run files with
  | mk result after => cases result <;> rfl

/-- What is done about a fault starts where the change failed. -/
theorem outcome_tryCatch (change : Edit α) (handler : Fault → Edit α) (files : FileSystem) :
    Edit.outcome (tryCatch change handler) files =
      match change.outcome files with
      | (.ok value, after) => (.ok value, after)
      | (.error fault, after) => (handler fault).outcome after := by
  simp only [outcome, ExceptT.run_tryCatch, StateT.run_bind]
  show (match change.run.run files with | (result, after) => _) = _
  cases change.run.run files with
  | mk result after => cases result <;> rfl

/-- A question is answered from the files, which stay as they are. -/
theorem outcome_ask (question : FileSystem → Except Fault α) (files : FileSystem) :
    (Edit.ask question).outcome files = (question files, files) := by
  unfold Edit.ask
  rw [outcome_bind]
  show Edit.outcome _ files = _
  cases question files <;> rfl

namespace Ensures

/-- A property that follows from an ensured one is ensured. -/
theorem mono {change : Edit α} {weaker : Except Fault α → FileSystem → Prop}
    (h : change.Ensures files post) (hpost : ∀ result after, post result after → weaker result after) :
    change.Ensures files weaker :=
  hpost _ _ h

/-- Failing changes nothing. -/
theorem throw {fault : Fault} (h : post (.error fault) files) :
    Edit.Ensures (MonadExcept.throw fault) files post :=
  h

/-- What follows a success starts where it ended; a fault ends the whole. -/
theorem bind {change : Edit α} {next : α → Edit β} {post : Except Fault β → FileSystem → Prop}
    {middle : Except Fault α → FileSystem → Prop} (first : change.Ensures files middle)
    (success : ∀ value after, middle (.ok value) after → (next value).Ensures after post)
    (failure : ∀ fault after, middle (.error fault) after → post (.error fault) after) :
    Edit.Ensures (change >>= next) files post := by
  unfold Edit.Ensures at first ⊢
  rw [outcome_bind]
  cases houtcome : change.outcome files with
  | mk result after =>
    rw [houtcome] at first
    cases result with
    | ok value => exact success value after first
    | error fault => exact failure fault after first

/-- What is done about a fault starts where the change failed. -/
theorem tryCatch {change : Edit α} {handler : Fault → Edit α}
    {middle : Except Fault α → FileSystem → Prop} (first : change.Ensures files middle)
    (success : ∀ value after, middle (.ok value) after → post (.ok value) after)
    (failure : ∀ fault after, middle (.error fault) after → (handler fault).Ensures after post) :
    Edit.Ensures (MonadExcept.tryCatch change handler) files post := by
  unfold Edit.Ensures at first ⊢
  rw [outcome_tryCatch]
  cases houtcome : change.outcome files with
  | mk result after =>
    rw [houtcome] at first
    cases result with
    | ok value => exact success value after first
    | error fault => exact failure fault after first

/-- What follows a question is given the answer; a fault in its place ends the whole. -/
theorem bind_ask {question : FileSystem → Except Fault α} {next : α → Edit β}
    {post : Except Fault β → FileSystem → Prop}
    (success : ∀ answer, question files = .ok answer → (next answer).Ensures files post)
    (failure : ∀ fault, question files = .error fault → post (.error fault) files) :
    Edit.Ensures (Edit.ask question >>= next) files post := by
  unfold Edit.Ensures
  rw [outcome_bind, outcome_ask]
  cases hanswer : question files with
  | ok answer => exact success answer hanswer
  | error fault => exact failure fault hanswer

/-- Putting something in a place succeeds. -/
theorem put {location : Location} {node : Node} {post : Except Fault Unit → FileSystem → Prop}
    (h : post (.ok ()) (files.put location node)) : (Edit.put location node).Ensures files post :=
  h

/-- What follows a look at the files is given the files. -/
theorem bind_get {next : FileSystem → Edit β} {post : Except Fault β → FileSystem → Prop}
    (h : (next files).Ensures files post) : Edit.Ensures (get >>= next) files post := by
  unfold Edit.Ensures
  rwa [outcome_bind]

/-- What follows a change that cannot fail is given the changed files. -/
theorem bind_modify {change : FileSystem → FileSystem} {next : PUnit → Edit β}
    {post : Except Fault β → FileSystem → Prop} (h : (next ⟨⟩).Ensures (change files) post) :
    Edit.Ensures (modify change >>= next) files post := by
  unfold Edit.Ensures
  rwa [outcome_bind]

/-- What is done for each of some things, and never broken off, keeps what each of them keeps. If all
of it succeeds, it has come to what each of them comes to and all others leave. -/
theorem forIn_each {Value : Type} {values : List Value}
    {body : Value → PUnit → Edit (ForInStep PUnit)} {kept : FileSystem → Prop}
    {done : Value → FileSystem → Prop} (hfiles : kept files)
    (hbody : ∀ value ∈ values, ∀ between, kept between →
      (body value ⟨⟩).Ensures between fun result after =>
        kept after ∧ (∀ other, done other between → done other after) ∧
          ∀ step, result = .ok step → step = .yield ⟨⟩ ∧ done value after) :
    Edit.Ensures (ForIn.forIn values PUnit.unit body) files fun result after =>
      kept after ∧ (∀ other, done other files → done other after) ∧
        (result = .ok ⟨⟩ → ∀ value ∈ values, done value after) := by
  induction values generalizing files with
  | nil => exact ⟨hfiles, fun _ hdone => hdone, fun _ _ hnil => absurd hnil List.not_mem_nil⟩
  | cons value values ih =>
    rw [List.forIn_cons]
    apply Ensures.bind (hbody value List.mem_cons_self files hfiles)
    · rintro step between ⟨hkept, hleaves, hstep⟩
      obtain ⟨rfl, hdone⟩ := hstep step rfl
      have hrest := ih hkept fun other hother => hbody other (List.mem_cons_of_mem _ hother)
      apply hrest.mono
      rintro result after ⟨hafter, hleft, hall⟩
      refine ⟨hafter, fun other hother => hleft other (hleaves other hother), fun hok other hother => ?_⟩
      rcases List.mem_cons.mp hother with rfl | hlater
      · exact hleft other hdone
      · exact hall hok other hlater
    · rintro fault after ⟨hkept, hleaves, -⟩
      exact ⟨hkept, hleaves, nofun⟩

/-- What is done for each of some things, succeeds for each of them and is never broken off succeeds. -/
theorem forIn_ok {Value : Type} {values : List Value}
    {body : Value → PUnit → Edit (ForInStep PUnit)} {kept : FileSystem → Prop} (hfiles : kept files)
    (hbody : ∀ value ∈ values, ∀ between, kept between →
      (body value ⟨⟩).Ensures between fun result after =>
        result = .ok (.yield ⟨⟩) ∧ kept after) :
    Edit.Ensures (ForIn.forIn values PUnit.unit body) files fun result _ => result = .ok ⟨⟩ := by
  induction values generalizing files with
  | nil => rfl
  | cons value values ih =>
    rw [List.forIn_cons]
    apply Ensures.bind (hbody value List.mem_cons_self files hfiles)
    · rintro step between ⟨⟨⟩, hkept⟩
      exact ih hkept fun other hother => hbody other (List.mem_cons_of_mem _ hother)
    · rintro fault after ⟨⟨⟩, -⟩

end Ensures

end Edit

end WorkingCopies.FileSystem
