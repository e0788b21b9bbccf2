import WorkingCopies.FileSystem.Resolve

/-!
# The faults of looking for a folder

Following a path fails for one of a few reasons, all of them with a text of their own: none of the
texts has a part of the path in it.
-/

namespace WorkingCopies.FileSystem

/-- The faults of looking for a folder. -/
def folderFaults : List Fault :=
  [.nulInPath, .noSuchEntry, .notAFolder, .nameTooLong, .tooManyLinks]

variable {files : FileSystem} {fault : Fault}

/-- Following names fails for the listed reasons if following links does. -/
theorem mem_folderFaults_of_follow
    {followLink : Location → List String → Bool → Except Fault Place} {here : Location}
    {names : List String} {needsFolder : Bool}
    (hlink : ∀ {here names needsFolder}, followLink here names needsFolder = .error fault →
      fault ∈ folderFaults)
    (h : follow files .look followLink here names needsFolder = .error fault) :
    fault ∈ folderFaults := by
  -- The recursive cases are settled by the induction; every other one names its fault.
  fun_induction follow files .look followLink here names needsFolder <;> grind [folderFaults]

/-- Following names over links fails for the listed reasons. -/
theorem mem_folderFaults_of_walk {links : Nat} {here : Location} {names : List String}
    {needsFolder : Bool} (h : walk files .look links here names needsFolder = .error fault) :
    fault ∈ folderFaults := by
  induction links generalizing here names needsFolder with
  | zero =>
    refine mem_folderFaults_of_follow (fun hlink => ?_) h
    cases hlink
    decide
  | succ links ih => exact mem_folderFaults_of_follow ih h

/-- A path that cannot be given to the operating system is refused for one of the listed reasons. -/
theorem mem_folderFaults_of_checkPath {path : Path} (h : checkPath path = .error fault) :
    fault ∈ folderFaults := by
  unfold checkPath at h
  split at h
  · cases h
    decide
  · split at h
    · cases h
      decide
    · split at h
      · cases h
        decide
      · cases h

/-- A working folder that is gone is one of the listed reasons. -/
theorem mem_folderFaults_of_origin {path : Path} (h : files.origin path = .error fault) :
    fault ∈ folderFaults := by
  unfold origin at h
  split at h
  · cases h
  · split at h <;> cases h
    decide

/-- Following a path fails for the listed reasons. -/
theorem mem_folderFaults_of_resolve {path : Path} (h : files.resolve .look path = .error fault) :
    fault ∈ folderFaults := by
  unfold resolve at h
  simp only [bind, Except.bind] at h
  cases hcheck : checkPath path with
  | error cause =>
    rw [hcheck] at h
    cases h
    exact mem_folderFaults_of_checkPath hcheck
  | ok _ =>
    rw [hcheck] at h
    cases horigin : files.origin path with
    | error cause =>
      rw [horigin] at h
      cases h
      exact mem_folderFaults_of_origin horigin
    | ok start =>
      rw [horigin] at h
      exact mem_folderFaults_of_walk h

/-- Finding the folder that holds the last name of a path fails for the listed reasons. -/
theorem mem_folderFaults_of_resolveParent {path : Path}
    (h : files.resolveParent path = .error fault) : fault ∈ folderFaults := by
  unfold resolveParent at h
  simp only [bind, Except.bind] at h
  cases hcheck : checkPath path with
  | error cause =>
    rw [hcheck] at h
    cases h
    exact mem_folderFaults_of_checkPath hcheck
  | ok _ =>
    rw [hcheck] at h
    cases horigin : files.origin path with
    | error cause =>
      rw [horigin] at h
      cases h
      exact mem_folderFaults_of_origin horigin
    | ok start =>
      rw [horigin] at h
      dsimp only at h
      split at h
      · next hwalk =>
        cases h
        exact mem_folderFaults_of_walk hwalk
      · split at h
        · split at h <;> cases h
          decide
        · cases h
          decide

/-- Looking for a folder fails for the listed reasons. -/
theorem mem_folderFaults_of_folderAt {path : Path} (h : files.folderAt path = .error fault) :
    fault ∈ folderFaults := by
  unfold folderAt at h
  simp only [bind, Except.bind] at h
  cases hplace : files.resolve .look path with
  | error cause =>
    rw [hplace] at h
    cases h
    exact mem_folderFaults_of_resolve hplace
  | ok place =>
    rw [hplace] at h
    cases place with
    | present location node => cases node <;> cases h <;> decide
    | absent folder name =>
      cases h
      decide

/-- What leads to a folder leads somewhere. -/
theorem leadsAnywhere_of_isFolder {path : Path} (h : files.isFolder path = true) :
    files.leadsAnywhere path = true := by
  unfold isFolder folderAt at h
  unfold leadsAnywhere
  cases hplace : files.resolve .look path with
  | error cause =>
    rw [hplace] at h
    cases h
  | ok place =>
    rw [hplace] at h
    cases place with
    | present location node => rfl
    | absent folder name => cases h

end WorkingCopies.FileSystem
