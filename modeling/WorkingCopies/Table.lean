/-!
# Tables

What is kept under names, in the order of the names. A name holds one thing, and what is put under
it last counts.
-/

namespace WorkingCopies

/-- Put something under a name into a list that is sorted by name. -/
def insertEntry {α : Type} (name : String) (value : α) : List (String × α) → List (String × α)
  | [] => [(name, value)]
  | entry :: entries =>
    if name < entry.1 then (name, value) :: entry :: entries
    else if name = entry.1 then (name, value) :: entries
    else entry :: insertEntry name value entries

/-- A name of the longer list is the new one or one of the old ones. -/
theorem eq_or_mem_of_mem_insertEntry {α : Type} {name : String} {value : α}
    {entries : List (String × α)} {entry : String × α}
    (h : entry ∈ insertEntry name value entries) :
    entry = (name, value) ∨ entry ∈ entries := by
  induction entries with
  | nil => simpa [insertEntry] using h
  | cons first rest ih =>
    unfold insertEntry at h
    split at h
    · simpa using h
    · split at h
      · simp at h
        rcases h with h | h <;> simp [h]
      · rcases List.mem_cons.1 h with h | h
        · simp [h]
        · rcases ih h with h | h <;> simp [h]

/-- A sorted list stays sorted. -/
theorem pairwise_insertEntry {α : Type} (name : String) (value : α) {entries : List (String × α)}
    (h : entries.Pairwise fun a b => a.1 < b.1) :
    (insertEntry name value entries).Pairwise fun a b => a.1 < b.1 := by
  induction entries with
  | nil => simp [insertEntry]
  | cons first rest ih =>
    obtain ⟨hfirst, hrest⟩ := List.pairwise_cons.1 h
    unfold insertEntry
    split
    · rename_i hlt
      refine List.pairwise_cons.2 ⟨fun entry hentry => ?_, h⟩
      rcases List.mem_cons.1 hentry with rfl | hentry
      · exact hlt
      · exact String.lt_trans hlt (hfirst entry hentry)
    · split
      · rename_i heq
        subst heq
        exact List.pairwise_cons.2 ⟨hfirst, hrest⟩
      · rename_i hlt hne
        refine List.pairwise_cons.2 ⟨fun entry hentry => ?_, ih hrest⟩
        rcases eq_or_mem_of_mem_insertEntry hentry with rfl | hentry
        · exact Std.lt_of_le_of_ne (String.not_lt.1 hlt) (Ne.symm hne)
        · exact hfirst entry hentry

/-- What is put under a name is found there, and what is under other names stays. -/
theorem lookup_insertEntry {α : Type} (name other : String) (value : α)
    (entries : List (String × α)) :
    (insertEntry name value entries).lookup other =
      if other = name then some value else entries.lookup other := by
  have head (key : String) (held : α) (rest : List (String × α)) :
      ((key, held) :: rest).lookup other =
        if other = key then some held else rest.lookup other := by
    rw [List.lookup_cons]
    by_cases h : other = key
    · simp [h]
    · have : (other == key) = false := by simpa using h
      simp [this, h]
  induction entries with
  | nil => exact head name value []
  | cons first rest ih =>
    obtain ⟨key, held⟩ := first
    unfold insertEntry
    split
    · exact head name value _
    · split
      · rename_i heq
        have heq : name = key := heq
        subst heq
        rw [head, head]
        split <;> rfl
      · rename_i hne
        have hne : name ≠ key := hne
        rw [head, head, ih]
        by_cases h : other = key
        · simp [h, Ne.symm hne]
        · simp [h]

/-- What is kept under names. -/
structure Table (α : Type) where
  entries : List (String × α)
  sorted : entries.Pairwise fun a b => a.1 < b.1

namespace Table

/-- The table that holds nothing. -/
def empty {α : Type} : Table α := ⟨[], List.Pairwise.nil⟩

/-- Put something under a name. -/
def insert {α : Type} (table : Table α) (name : String) (value : α) : Table α where
  entries := insertEntry name value table.entries
  sorted := pairwise_insertEntry name value table.sorted

/-- What is kept under a name. -/
def get? {α : Type} (table : Table α) (name : String) : Option α := table.entries.lookup name

/-- A name holds what was put under it last. -/
theorem get?_insert {α : Type} (table : Table α) (name other : String) (value : α) :
    (table.insert name value).get? other = if other = name then some value else table.get? other :=
  lookup_insertEntry name other value table.entries

/-- Put entries into the empty table, one after the other. -/
def ofList {α : Type} (entries : List (String × α)) : Table α :=
  entries.foldl (fun table entry => table.insert entry.1 entry.2) empty

end Table

end WorkingCopies
