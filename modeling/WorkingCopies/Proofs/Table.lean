import Mathlib.Data.List.Nodup
import WorkingCopies.Table

/-!
# What tables hold

A table holds one thing under each name, so its entries are what is found in it. A table that was
made of entries under different names holds these and nothing else.
-/

namespace WorkingCopies

variable {α : Type} {name : String} {value : α}

/-- Under a name that no entry has nothing is found. -/
theorem lookup_eq_none_of_not_mem {entries : List (String × α)}
    (h : name ∉ entries.map Prod.fst) : entries.lookup name = none := by
  rw [List.lookup_eq_none_iff]
  intro entry hentry
  simp only [bne_iff_ne, ne_eq]
  rintro rfl
  exact h (List.mem_map_of_mem hentry)

/-- Of entries under different names, each is found under its name. -/
theorem lookup_eq_some_iff_mem {entries : List (String × α)}
    (hnames : (entries.map Prod.fst).Nodup) :
    entries.lookup name = some value ↔ (name, value) ∈ entries := by
  induction entries with
  | nil => simp
  | cons entry entries ih =>
    obtain ⟨hentry, hrest⟩ := List.nodup_cons.mp hnames
    rw [List.lookup_cons, List.mem_cons]
    by_cases hname : name = entry.1
    · subst hname
      have hlater : (entry.1, value) ∉ entries := fun hmem =>
        hentry (List.mem_map.mpr ⟨_, hmem, rfl⟩)
      simp [hlater, Prod.ext_iff, eq_comm]
    · simp [hname, beq_eq_false_iff_ne.mpr hname, ih hrest, Prod.ext_iff]

/-- Changing what is kept under names changes what is found under them. -/
theorem lookup_map_snd {β : Type} {entries : List (String × α)} (change : α → β) :
    (entries.map fun entry => (entry.1, change entry.2)).lookup name =
      (entries.lookup name).map change := by
  induction entries with
  | nil => rfl
  | cons entry entries ih =>
    rw [List.map_cons, List.lookup_cons, List.lookup_cons]
    cases name == entry.1 <;> simp [ih]

/-- Entries that are chosen by name are found under the chosen names. -/
theorem lookup_filter_fst {entries : List (String × α)} (keep : String → Bool) :
    (entries.filter fun entry => keep entry.1).lookup name =
      if keep name then entries.lookup name else none := by
  induction entries with
  | nil => simp
  | cons entry entries ih =>
    obtain ⟨key, value⟩ := entry
    rw [List.filter_cons, List.lookup_cons]
    cases hname : name == key with
    | true =>
      obtain rfl := beq_iff_eq.mp hname
      cases hkeep : keep name <;> simp [hkeep, ih]
    | false => cases keep key <;> simp [List.lookup_cons, hname, ih]

namespace Table

/-- Of entries under different names a table holds each, besides what it held before. -/
theorem get?_foldl_insert {entries : List (String × α)} {table : Table α}
    (hnames : (entries.map Prod.fst).Nodup) (name : String) :
    (entries.foldl (fun table entry => table.insert entry.1 entry.2) table).get? name =
      (entries.lookup name).or (table.get? name) := by
  induction entries generalizing table with
  | nil => rfl
  | cons entry entries ih =>
    obtain ⟨hentry, hrest⟩ := List.nodup_cons.mp hnames
    rw [List.foldl_cons, ih hrest, get?_insert, List.lookup_cons]
    by_cases hname : name = entry.1
    · subst hname
      simp [lookup_eq_none_of_not_mem hentry]
    · simp [hname, beq_eq_false_iff_ne.mpr hname]

/-- No two entries of a table have the same name. -/
theorem nodup_names (table : Table α) : (table.entries.map Prod.fst).Nodup := by
  rw [List.Nodup, List.pairwise_map]
  refine table.sorted.imp ?_
  rintro earlier later hless hsame
  rw [hsame] at hless
  exact String.lt_irrefl _ hless

/-- The entries of a table are what is found in it. -/
theorem mem_entries_iff {table : Table α} :
    (name, value) ∈ table.entries ↔ table.get? name = some value :=
  (lookup_eq_some_iff_mem table.nodup_names).symm

/-- Nothing is found in the empty table. -/
@[simp] theorem get?_empty : (empty : Table α).get? name = none := rfl

/-- A table made of entries under different names has just these entries. -/
theorem mem_entries_ofList {entries : List (String × α)}
    (hnames : (entries.map Prod.fst).Nodup) :
    (name, value) ∈ (ofList entries).entries ↔ (name, value) ∈ entries := by
  rw [mem_entries_iff, ofList, get?_foldl_insert hnames, get?_empty, Option.or_none,
    lookup_eq_some_iff_mem hnames]

end Table

end WorkingCopies
