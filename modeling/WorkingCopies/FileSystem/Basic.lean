import WorkingCopies.Text.Utf8

/-!
# File systems

A file system is a table of places. A place is the list of names on the way to it from the root, and
holds a folder, a file or a link; the root is always a folder. Relative paths start at one place,
the working folder.
-/

namespace WorkingCopies

namespace FileSystem

/-- The names on the way from the root to a place. -/
abbrev Location := List String

/-- What a place holds. -/
inductive Node where
  | folder
  | file (contents : Bytes)
  | link (target : String)
  deriving Repr, DecidableEq, Inhabited

/-- Whether a node is a folder. -/
def Node.isFolder : Node → Bool
  | folder => true
  | _ => false

end FileSystem

open FileSystem (Location Node)

/-- The places that hold something, and the working folder. -/
structure FileSystem where
  entries : List (Location × Node) := []
  start : Location := []
  deriving Repr, DecidableEq, Inhabited

namespace FileSystem

/-- What a place holds. -/
def find? (files : FileSystem) (location : Location) : Option Node :=
  if location = [] then some .folder else files.entries.lookup location

/-- Put something in a place. What it held before is lost. -/
def put (files : FileSystem) (location : Location) (node : Node) : FileSystem :=
  { files with
    entries := (location, node) :: files.entries.filter fun entry => entry.1 ≠ location }

/-- Clear one place. -/
def erase (files : FileSystem) (location : Location) : FileSystem :=
  { files with entries := files.entries.filter fun entry => entry.1 ≠ location }

/-- Whether one place lies below another, however deep. -/
def isBelow (location above : Location) : Bool :=
  above.isPrefixOf location && location != above

/-- Clear all places below one. -/
def eraseBelow (files : FileSystem) (location : Location) : FileSystem :=
  { files with entries := files.entries.filter fun entry => !isBelow entry.1 location }

/-- The name of a place in a folder, if it lies right in it. -/
def nameIn? (folder location : Location) : Option String :=
  match location.getLast? with
  | some name => if location = folder ++ [name] then some name else none
  | none => none

/-- What lies right in a folder, by name. The order in which a folder is listed is left to the system,
and is taken here to be that of the names. -/
def contents (files : FileSystem) (folder : Location) : List (String × Node) :=
  (files.entries.filterMap fun entry => (nameIn? folder entry.1).map (·, entry.2)).mergeSort
    fun a b => a.1 ≤ b.1

/-- Keeping some places changes nothing about them and empties the others. -/
theorem lookup_filter (keep : Location → Bool) (entries : List (Location × Node))
    (location : Location) :
    (entries.filter fun entry => keep entry.1).lookup location =
      if keep location then entries.lookup location else none := by
  induction entries with
  | nil => simp
  | cons entry entries ih =>
    obtain ⟨place, node⟩ := entry
    rw [List.lookup_cons]
    by_cases hp : location = place
    · subst hp
      by_cases hk : keep location
      · simp [hk]
      · rw [List.filter_cons_of_neg (by simpa using hk), ih]
        simp [hk]
    · have hne : (location == place) = false := by simpa using hp
      by_cases hk : keep place
      · rw [List.filter_cons_of_pos (by simpa using hk), List.lookup_cons, hne, ih]
      · rw [List.filter_cons_of_neg (by simpa using hk), hne, ih]

/-- A place holds what was put there last. -/
theorem find?_put (files : FileSystem) (location other : Location) (node : Node)
    (h : location ≠ []) :
    (files.put location node).find? other =
      if other = location then some node else files.find? other := by
  by_cases ho : other = []
  · subst ho
    simp [find?, Ne.symm h]
  · by_cases hl : other = location
    · subst hl
      simp [find?, put, h]
    · have hne : (other == location) = false := by simpa using hl
      simp only [find?, ho, hl, put, List.lookup_cons, hne, if_false]
      simpa [hl] using lookup_filter (fun place => decide (place ≠ location)) files.entries other

/-- A cleared place holds nothing, and every other one what it held. -/
theorem find?_erase (files : FileSystem) (location other : Location) (h : location ≠ []) :
    (files.erase location).find? other = if other = location then none else files.find? other := by
  by_cases ho : other = []
  · subst ho
    simp [find?, Ne.symm h]
  · simp only [find?, ho, erase, if_false]
    rw [lookup_filter (fun place => decide (place ≠ location)) files.entries other]
    by_cases hl : other = location <;> simp [hl]

/-- What lies below a cleared place is gone, and all else is as it was. -/
theorem find?_eraseBelow (files : FileSystem) (location other : Location) :
    (files.eraseBelow location).find? other =
      if isBelow other location then none else files.find? other := by
  by_cases ho : other = []
  · subst ho
    cases location <;> simp [find?, isBelow]
  · simp only [find?, ho, eraseBelow, if_false]
    rw [lookup_filter (fun place => !isBelow place location) files.entries other]
    by_cases hb : isBelow other location <;> simp [hb]

end FileSystem

end WorkingCopies
