import WorkingCopies.Manifest.Source

/-!
# Declarations read one after the other

A manifest and the settings of a user declare repositories by entries of the same form. What is
declared is read in turn, and all of it has to be readable; under each name the last declaration
counts.
-/

namespace WorkingCopies

open Yaml (Value)

variable {α : Type} {name : String} {fields : List (String × Value)}

/-- Read declared things one after the other into a table. -/
def readDeclared (read : String → Value → Except Failure α) (declared : List (String × Value))
    (table : Table α) : Except Failure (Table α) :=
  declared.foldlM (fun table entry => (read entry.1 entry.2).map (table.insert entry.1)) table

section ReadDeclared

variable {read : String → Value → Except Failure α} {declared : List (String × Value)}
  {table last : Table α}

/-- Reading goes on behind the first thing if that can be read. -/
theorem readDeclared_cons (value : Value) :
    readDeclared read ((name, value) :: declared) table =
      match read name value with
      | .ok found => readDeclared read declared (table.insert name found)
      | .error failure => .error failure := by
  unfold readDeclared
  rw [List.foldlM_cons]
  cases read name value <;> rfl

/-- Where all was read, the first thing was, and the rest behind it. -/
theorem of_readDeclared_cons {value : Value}
    (h : readDeclared read ((name, value) :: declared) table = .ok last) :
    ∃ found, read name value = .ok found ∧
      readDeclared read declared (table.insert name found) = .ok last := by
  rw [readDeclared_cons] at h
  cases hread : read name value with
  | ok found => exact ⟨found, rfl, by rwa [hread] at h⟩
  | error failure =>
    rw [hread] at h
    cases h

/-- All is read exactly if each thing can be read. -/
theorem readDeclared_isOk_iff :
    (∃ last, readDeclared read declared table = .ok last) ↔
      ∀ entry ∈ declared, ∃ found, read entry.1 entry.2 = .ok found := by
  induction declared generalizing table with
  | nil => simp [readDeclared, pure, Except.pure]
  | cons entry declared ih =>
    obtain ⟨key, value⟩ := entry
    rw [readDeclared_cons, List.forall_mem_cons]
    cases hread : read key value with
    | ok found => simp [ih]
    | error failure => simp

/-- What is not declared is not read. -/
theorem get?_readDeclared_of_absent (h : readDeclared read declared table = .ok last)
    (habsent : ∀ entry ∈ declared, entry.1 ≠ name) : last.get? name = table.get? name := by
  induction declared generalizing table with
  | nil =>
    cases h
    rfl
  | cons entry declared ih =>
    obtain ⟨hkey, hrest⟩ := List.forall_mem_cons.mp habsent
    obtain ⟨found, -, hlast⟩ := of_readDeclared_cons h
    rw [ih hlast hrest, Table.get?_insert, if_neg (Ne.symm hkey)]

/-- What is declared last under a name is what is read under it. -/
theorem get?_readDeclared {earlier later : List (String × Value)} {value : Value}
    (h : readDeclared read (earlier ++ (name, value) :: later) table = .ok last)
    (hlater : ∀ entry ∈ later, entry.1 ≠ name) :
    ∃ found, read name value = .ok found ∧ last.get? name = some found := by
  induction earlier generalizing table with
  | nil =>
    obtain ⟨found, hfound, hlast⟩ := of_readDeclared_cons h
    refine ⟨found, hfound, ?_⟩
    rw [get?_readDeclared_of_absent hlast hlater, Table.get?_insert, if_pos rfl]
  | cons entry earlier ih =>
    obtain ⟨_, -, hlast⟩ := of_readDeclared_cons h
    exact ih hlast

/-- The first thing that cannot be read is what reading fails with. -/
theorem readDeclared_eq_error {earlier later : List (String × Value)} {value : Value}
    {failure : Failure} (hearlier : ∀ entry ∈ earlier, ∃ found, read entry.1 entry.2 = .ok found)
    (hread : read name value = .error failure) :
    readDeclared read (earlier ++ (name, value) :: later) table = .error failure := by
  induction earlier generalizing table with
  | nil => rw [List.nil_append, readDeclared_cons, hread]
  | cons entry earlier ih =>
    obtain ⟨key, other⟩ := entry
    obtain ⟨⟨found, hfound⟩, hrest⟩ := List.forall_mem_cons.mp hearlier
    rw [List.cons_append, readDeclared_cons, hfound]
    exact ih hrest

end ReadDeclared

/-- The declared repositories are read one after the other. -/
theorem Manifest.declaredRepositories_eq (entries : List (Value × Value)) :
    declaredRepositories entries = readDeclared declaredFields (declarations entries) .empty := rfl

/-- Credentials that a value gives, or the failure that it gives none. -/
def Settings.declaredCredentials (value : Value) : Except Failure Credentials :=
  (readCredentials value).mapError .yaml

/-- The credentials of a user are read one after the other. -/
theorem Settings.ofEntries_eq (entries : List (Value × Value)) :
    ofEntries entries =
      (readDeclared (fun _ => declaredCredentials) (declarations entries) .empty).map
        Settings.mk := by
  show ofEntries entries = Settings.mk <$> readDeclared _ _ _
  rw [map_eq_pure_bind]
  unfold ofEntries readDeclared
  congr 2
  funext table entry
  simp only [declaredCredentials]
  cases readCredentials entry.2 <;> rfl

/-- Named fields as the entries of a mapping. -/
def fieldEntries (fields : List (String × Value)) : List (Value × Value) :=
  fields.map fun field => (.text field.1, field.2)

/-- The first of named fields is the first entry. -/
theorem fieldEntries_cons (field : String × Value) (fields : List (String × Value)) :
    fieldEntries (field :: fields) = (.text field.1, field.2) :: fieldEntries fields := rfl

/-- The entry that declares a repository by named fields. -/
def declaring (name : String) (fields : List (String × Value)) : Value × Value :=
  (.text ("repository." ++ name), .mapping (fieldEntries fields))

/-- Such an entry declares that repository. -/
theorem declaredName?_declaring : declaredName? (declaring name fields).1 = some name := by
  have hkey : declaredName? (declaring name fields).1 = (Text.stripInitial? "repository.".toList
      ("repository." ++ name).toList).map String.ofList := rfl
  rw [hkey, String.toList_append, Text.stripInitial?_append, Option.map_some, String.ofList_toList]

/-- The declarations among the entries of two lists are those of both. -/
theorem declarations_append (entries more : List (Value × Value)) :
    declarations (entries ++ more) = declarations entries ++ declarations more :=
  List.filterMap_append

/-- It is one declaration more. -/
theorem declarations_declaring (earlier later : List (Value × Value)) :
    declarations (earlier ++ declaring name fields :: later) =
      declarations earlier ++ (name, (declaring name fields).2) :: declarations later := by
  rw [declarations_append, declarations, declarations, List.filterMap_cons,
    declaredName?_declaring]
  rfl

/-- What no entry declares is not declared. -/
theorem declarations_absent {entries : List (Value × Value)}
    (h : ∀ entry ∈ entries, declaredName? entry.1 ≠ some name) :
    ∀ declared ∈ declarations entries, declared.1 ≠ name := by
  intro declared hdeclared
  obtain ⟨entry, hentry, hname⟩ := List.mem_filterMap.mp hdeclared
  cases hkey : declaredName? entry.1 with
  | none =>
    rw [hkey] at hname
    cases hname
  | some other =>
    rw [hkey] at hname
    cases hname
    rintro rfl
    exact h entry hentry hkey

/-- A declaration is no other key. -/
theorem lookup?_declaring {key : String} (hkey : key ≠ "repository." ++ name)
    (earlier later : List (Value × Value)) :
    Value.lookup? (earlier ++ declaring name fields :: later) key =
      Value.lookup? (earlier ++ later) key := by
  have hother : ("repository." ++ name == key) = false := beq_eq_false_iff_ne.mpr (Ne.symm hkey)
  unfold Value.lookup?
  rw [List.findSome?_append, List.findSome?_append, List.findSome?_cons]
  simp only [declaring, hother, Bool.false_eq_true, if_false]

/-- The repositories that a project uses are listed under another key than a declaration. -/
theorem usedNames_declaring (earlier later : List (Value × Value)) :
    Manifest.usedNames (earlier ++ declaring name fields :: later) =
      Manifest.usedNames (earlier ++ later) := by
  have hkey : "project.repositories" ≠ "repository." ++ name := by
    intro hsame
    have hhead := congrArg (fun text => text.toList.head?) hsame
    simp only [String.toList_append, List.head?_append] at hhead
    cases hhead
  unfold Manifest.usedNames
  rw [lookup?_declaring hkey]

/-- A manifest is read if its lists can be: that of the repositories in use and the declarations. -/
theorem Manifest.ofEntries_eq_ok_iff {entries : List (Value × Value)} {manifest : Manifest} :
    ofEntries entries = .ok manifest ↔
      ∃ used repositories, usedNames entries = .ok used ∧
        declaredRepositories entries = .ok repositories ∧
        manifest = ⟨(Value.lookup? entries "project.name").bind Value.scalarText?, used,
          repositories⟩ := by
  unfold ofEntries
  cases usedNames entries with
  | error failure => simp [bind, Except.bind]
  | ok used =>
    cases declaredRepositories entries with
    | error failure => simp [bind, Except.bind]
    | ok repositories => simp [bind, Except.bind, pure, Except.pure, eq_comm]

/-- What a manifest declares under a name last is its declaration of that repository. -/
theorem Manifest.get?_of_declaring {earlier later : List (Value × Value)} {manifest : Manifest}
    (h : ofEntries (earlier ++ declaring name fields :: later) = .ok manifest)
    (hlater : ∀ entry ∈ later, declaredName? entry.1 ≠ some name) :
    manifest.repositories.get? name =
      some (Manifest.fields (fieldEntries fields)) := by
  obtain ⟨used, repositories, -, hdeclared, rfl⟩ := ofEntries_eq_ok_iff.mp h
  rw [declaredRepositories_eq, declarations_declaring] at hdeclared
  obtain ⟨found, hfound, hget⟩ := get?_readDeclared hdeclared (declarations_absent hlater)
  cases hfound
  exact hget

/-- Other fields of a declaration do not keep a manifest from being read. -/
theorem Manifest.ofEntries_declaring_isOk {earlier later : List (Value × Value)}
    {manifest : Manifest} (others : List (String × Value))
    (h : ofEntries (earlier ++ declaring name fields :: later) = .ok manifest) :
    ∃ manifest, ofEntries (earlier ++ declaring name others :: later) = .ok manifest := by
  obtain ⟨used, repositories, hused, hdeclared, -⟩ := ofEntries_eq_ok_iff.mp h
  rw [usedNames_declaring] at hused
  rw [declaredRepositories_eq, declarations_declaring] at hdeclared
  obtain ⟨hearlier, -, hlater⟩ : _ ∧ _ ∧ _ := by
    simpa only [List.forall_mem_append, List.forall_mem_cons] using
      readDeclared_isOk_iff.mp ⟨_, hdeclared⟩
  obtain ⟨moved, hmoved⟩ : ∃ moved, readDeclared declaredFields
      (declarations (earlier ++ declaring name others :: later)) .empty = .ok moved := by
    rw [readDeclared_isOk_iff, declarations_declaring, List.forall_mem_append,
      List.forall_mem_cons]
    exact ⟨hearlier, ⟨_, rfl⟩, hlater⟩
  exact ⟨_, ofEntries_eq_ok_iff.mpr ⟨used, moved, by rwa [usedNames_declaring], hmoved, rfl⟩⟩

namespace Settings

/-- Settings are read if all declarations can be. -/
theorem ofEntries_eq_ok_iff {entries : List (Value × Value)} {settings : Settings} :
    ofEntries entries = .ok settings ↔
      readDeclared (fun _ => declaredCredentials) (declarations entries) .empty =
        .ok settings.credentials := by
  rw [ofEntries_eq]
  cases readDeclared (fun _ => declaredCredentials) (declarations entries) .empty with
  | error failure => simp [Except.map]
  | ok credentials =>
    obtain ⟨given⟩ := settings
    simp [Except.map]

/-- What settings declare under a name last are the credentials that they have for it. -/
theorem get?_of_declaring {earlier later : List (Value × Value)} {settings : Settings}
    (h : ofEntries (earlier ++ declaring name fields :: later) = .ok settings)
    (hlater : ∀ entry ∈ later, declaredName? entry.1 ≠ some name) :
    ∃ found, declaredCredentials (declaring name fields).2 = .ok found ∧
      settings.get? name = some found := by
  rw [ofEntries_eq_ok_iff, declarations_declaring] at h
  exact get?_readDeclared h (declarations_absent hlater)

/-- Settings that do not declare a repository have no credentials for it. -/
theorem get?_of_absent {entries : List (Value × Value)} {settings : Settings}
    (h : ofEntries entries = .ok settings)
    (habsent : ∀ entry ∈ entries, declaredName? entry.1 ≠ some name) :
    settings.get? name = none :=
  get?_readDeclared_of_absent (ofEntries_eq_ok_iff.mp h) (declarations_absent habsent)

section Declaring

variable {earlier later : List (Value × Value)} {settings : Settings}

/-- Where settings can be read, so can the declarations in every part of them. -/
theorem of_ofEntries_append (h : ofEntries (earlier ++ later) = .ok settings) :
    (∀ entry ∈ declarations earlier, ∃ found, declaredCredentials entry.2 = .ok found) ∧
      ∀ entry ∈ declarations later, ∃ found, declaredCredentials entry.2 = .ok found := by
  rw [ofEntries_eq_ok_iff] at h
  have hall := readDeclared_isOk_iff.mp ⟨_, h⟩
  rwa [declarations_append, List.forall_mem_append] at hall

/-- One declaration more is read if its credentials can be. -/
theorem ofEntries_declaring_isOk {found : Credentials}
    (h : ofEntries (earlier ++ later) = .ok settings)
    (hfound : declaredCredentials (declaring name fields).2 = .ok found) :
    ∃ settings, ofEntries (earlier ++ declaring name fields :: later) = .ok settings := by
  obtain ⟨hearlier, hlater⟩ := of_ofEntries_append h
  obtain ⟨credentials, hcredentials⟩ : ∃ credentials, readDeclared (fun _ => declaredCredentials)
      (declarations (earlier ++ declaring name fields :: later)) .empty = .ok credentials := by
    rw [readDeclared_isOk_iff, declarations_declaring, List.forall_mem_append,
      List.forall_mem_cons]
    exact ⟨hearlier, ⟨found, hfound⟩, hlater⟩
  exact ⟨⟨credentials⟩, ofEntries_eq_ok_iff.mpr hcredentials⟩

/-- If they cannot be read, neither can the settings, for the same reason. -/
theorem ofEntries_declaring_eq_error {failure : Failure}
    (h : ofEntries (earlier ++ later) = .ok settings)
    (hfailure : declaredCredentials (declaring name fields).2 = .error failure) :
    ofEntries (earlier ++ declaring name fields :: later) = .error failure := by
  rw [ofEntries_eq, declarations_declaring,
    readDeclared_eq_error (of_ofEntries_append h).1 hfailure]
  rfl

end Declaring

end Settings

end WorkingCopies
