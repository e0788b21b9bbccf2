import WorkingCopies.Proofs.FileSystem.Edit
import WorkingCopies.Proofs.FileSystem.Resolve

/-!
# Why folders cannot be made

Making folders fails for two reasons more than looking for one, and their texts have no part of a
path in them either.
-/

namespace WorkingCopies.FileSystem

/-- The faults of making folders. -/
def createFaults : List Fault := .alreadyExists :: .noFolderToCreate :: folderFaults

/-- Whether a change fails for no other reasons than some faults. -/
def Edit.RefusedBy {α : Type} (faults : List Fault) (change : Edit α) : Prop :=
  ∀ files, change.Ensures files fun result _ => ∀ fault, result = .error fault → fault ∈ faults

namespace Edit.RefusedBy

variable {α β : Type} {faults : List Fault}

/-- Giving a value is refused for no reason. -/
theorem pure {value : α} : RefusedBy faults (Pure.pure value) := by
  intro files fault hfault
  cases hfault

/-- A listed fault may be thrown. -/
theorem throw {fault : Fault} (h : fault ∈ faults) :
    RefusedBy faults (MonadExcept.throw fault : Edit α) := by
  intro files other hother
  cases hother
  exact h

/-- Two changes in turn are refused for the reasons of either. -/
theorem bind {change : Edit α} {next : α → Edit β} (first : RefusedBy faults change)
    (rest : ∀ value, RefusedBy faults (next value)) : RefusedBy faults (change >>= next) := by
  intro files
  apply Ensures.bind (first files)
  · exact fun value after _ => rest value after
  · intro fault _ hfault other hother
    cases hother
    exact hfault fault rfl

/-- A question is refused for the reasons that it has no answer for. -/
theorem ask {question : FileSystem → Except Fault α}
    (h : ∀ files fault, question files = .error fault → fault ∈ faults) :
    RefusedBy faults (Edit.ask question) := by
  intro files
  unfold Ensures
  rw [outcome_ask]
  exact h files

/-- Putting something in a place is refused for no reason. -/
theorem put {location : Location} {node : Node} : RefusedBy faults (Edit.put location node) := by
  intro files fault hfault
  cases hfault

/-- What follows a look at the files is refused for reasons of its own. -/
theorem bind_get {next : FileSystem → Edit β} (h : ∀ files, RefusedBy faults (next files)) :
    RefusedBy faults (get >>= next) :=
  fun files => Ensures.bind_get (h files files)

/-- A fault that is dealt with is refused for the reasons of what is done about it. -/
theorem tryCatch {change : Edit α} {handler : Fault → Edit α} (first : RefusedBy faults change)
    (rest : ∀ fault ∈ faults, RefusedBy faults (handler fault)) :
    RefusedBy faults (MonadExcept.tryCatch change handler) := by
  intro files
  apply Ensures.tryCatch (first files)
  · intro value after _ fault hfault
    cases hfault
  · exact fun fault after hfault => rest fault (hfault fault rfl) after

end Edit.RefusedBy

open Edit (RefusedBy)

/-- Making one folder is refused for the listed reasons. -/
theorem refusedBy_makeFolder (path : Path) : RefusedBy createFaults (makeFolder path) := by
  apply RefusedBy.bind
  · apply RefusedBy.ask
    intro files fault hfault
    have hlisted : fault ∈ folderFaults := mem_folderFaults_of_resolveParent hfault
    simp [createFaults, hlisted]
  · intro parent
    obtain ⟨folder, name⟩ := parent
    cases name with
    | none => exact .throw (by decide)
    | some name =>
      apply RefusedBy.bind_get
      intro files
      split
      · exact .throw (by decide)
      · exact .put

/-- Keeping a fault unless a folder is there is refused for no other reason. -/
theorem refusedBy_unless_isFolder {fault : Fault} (path : Path) (h : fault ∈ createFaults) :
    RefusedBy createFaults (do unless (← get).isFolder path do throw fault) := by
  apply RefusedBy.bind_get
  intro files
  split
  · exact .pure
  · exact .throw h

/-- Making a folder and those above it is refused for the listed reasons. -/
theorem refusedBy_createFoldersOn (fuel : Nat) (path : Path) :
    RefusedBy createFaults (createFoldersOn fuel path) := by
  induction fuel generalizing path with
  | zero => exact .throw (by decide)
  | succ fuel ih =>
    unfold createFoldersOn
    split
    · exact .pure
    · apply RefusedBy.tryCatch (refusedBy_makeFolder path)
      intro fault hfault
      split
      · have hensure : RefusedBy createFaults (ensureFolder path) :=
          .tryCatch (refusedBy_makeFolder path) fun _ => refusedBy_unless_isFolder path
        split
        · exact .bind (ih _) fun _ => hensure
        · exact .throw (by decide)
      · exact refusedBy_unless_isFolder path hfault

/-- Making a folder and those above it is refused for the listed reasons. -/
theorem refusedBy_createFolders (path : Path) : RefusedBy createFaults (createFolders path) :=
  refusedBy_createFoldersOn _ path

end WorkingCopies.FileSystem
