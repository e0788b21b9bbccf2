import WorkingCopies.Yaml.Document

/-!
# The keys of mappings

No two entries of a mapping have the same key. A key that was there before makes the document
malformed, so this holds of every mapping inside of a value that was read, under aliases and tags as
well.
-/

namespace WorkingCopies.Yaml

variable {α β : Type}

/-- Whether all that can come of a computation has a property. -/
def Yields (result : Except Error α) (property : α → Prop) : Prop :=
  ∀ value, result = .ok value → property value

namespace Yields

variable {property : α → Prop}

/-- A value yields itself. -/
theorem ok {value : α} (h : property value) : Yields (.ok value) property := by
  rintro _ ⟨⟩
  exact h

/-- An error yields nothing. -/
theorem error {error : Error} : Yields (.error error) property := nofun

/-- What follows a value yields what it yields for that value. -/
theorem bind {result : Except Error α} {next : α → Except Error β} {last : β → Prop}
    (first : Yields result property) (rest : ∀ value, property value → Yields (next value) last) :
    Yields (result >>= next) last := by
  cases result with
  | error => exact error
  | ok value => exact rest value (first value rfl)

end Yields

namespace Value

/-- Whether a value has no values inside of it. -/
def isScalar : Value → Bool
  | sequence _ | mapping _ | tagged .. => false
  | _ => true

/-- Whether no two entries have the same key. -/
def KeysDiffer (entries : List (Value × Value)) : Prop :=
  entries.Pairwise fun earlier later => later.1.same earlier.1 = false

/-- Whether the keys of all mappings inside of a value differ. -/
inductive HasKeysApart : Value → Prop
  | scalar {value : Value} (h : value.isScalar = true) : HasKeysApart value
  | sequence {items : List Value} (h : ∀ item ∈ items, HasKeysApart item) :
    HasKeysApart (.sequence items)
  | mapping {entries : List (Value × Value)} (keys : KeysDiffer entries)
    (first : ∀ entry ∈ entries, HasKeysApart entry.1)
    (second : ∀ entry ∈ entries, HasKeysApart entry.2) : HasKeysApart (.mapping entries)
  | tagged {tag : String} {value : Value} (h : HasKeysApart value) :
    HasKeysApart (.tagged tag value)

namespace HasKeysApart

variable {entries : List (Value × Value)}

/-- The keys of a mapping differ if all do. -/
theorem keysDiffer (h : HasKeysApart (.mapping entries)) : KeysDiffer entries := by
  cases h with
  | scalar h => cases h
  | mapping keys => exact keys

/-- So do those of the mappings inside of its values. -/
theorem second (h : HasKeysApart (.mapping entries)) : ∀ entry ∈ entries, HasKeysApart entry.2 := by
  cases h with
  | scalar h => cases h
  | mapping keys first second => exact second

end HasKeysApart

/-- An entry with a text for its key gives the value of that key, before those behind it. -/
theorem lookup?_cons_text (entries : List (Value × Value)) (content : String) (held : Value)
    (key : String) :
    lookup? ((.text content, held) :: entries) key =
      if content = key then some held else lookup? entries key := by
  unfold lookup?
  rw [List.findSome?_cons]
  by_cases hsame : content = key <;> simp [hsame]

namespace KeysDiffer

variable {β : Type} {entries : List (Value × Value)}

/-- What is chosen of entries that have texts for keys has different names, if the names make the
texts differ. -/
theorem nodup_filterMap {choose : Value × Value → Option (String × β)} (key : String → String)
    (h : KeysDiffer entries)
    (hchoose : ∀ entry ∈ entries, ∀ chosen, choose entry = some chosen →
      entry.1 = .text (key chosen.1)) :
    ((entries.filterMap choose).map Prod.fst).Nodup := by
  rw [List.Nodup, List.pairwise_map, List.pairwise_filterMap]
  refine List.Pairwise.imp_of_mem ?_ h
  intro earlier later hearlier hlater hdiffer first hfirst second hsecond hsame
  rw [hchoose earlier hearlier first hfirst, hchoose later hlater second hsecond, hsame] at hdiffer
  simp [same] at hdiffer

/-- The value of a key is that of its entry. -/
theorem lookup?_eq_some_iff (h : KeysDiffer entries) {key : String} {value : Value} :
    lookup? entries key = some value ↔ (.text key, value) ∈ entries := by
  induction h with
  | nil => simp [lookup?]
  | @cons entry entries hentry hdiffer ih =>
    obtain ⟨first, held⟩ := entry
    rw [List.mem_cons, Prod.mk.injEq]
    cases first with
    | text content =>
      rw [lookup?_cons_text, ← ih]
      by_cases hsame : content = key
      · subst hsame
        have hlater : lookup? entries content ≠ some value := fun hfound => by
          simpa [same] using hentry _ (ih.mp hfound)
        simp [hlater, eq_comm]
      · simp [hsame, Ne.symm hsame]
    | _ => exact ih.trans (by simp)

end KeysDiffer

end Value

namespace Scalar

/-- The value of an integer is a scalar. -/
theorem yields_integerValue? (place : Place) (text : String) :
    Yields (integerValue? place text) fun found =>
      ∀ value, found = some value → value.isScalar = true := by
  unfold integerValue?
  split
  · refine .ok ?_
    rintro _ ⟨⟩
    rfl
  · exact .error
  · exact .ok nofun
  · exact .ok nofun

/-- The value of a plain scalar is a scalar. -/
theorem yields_plainValue (place : Place) (text : String) :
    Yields (plainValue place text) fun value => value.isScalar = true := by
  unfold plainValue
  dsimp only
  split
  · exact .ok rfl
  split
  · exact .ok rfl
  refine .bind (yields_integerValue? place text) fun found hfound => ?_
  split
  · exact .ok (hfound _ rfl)
  split
  · split
    · exact .ok rfl
    · exact .ok rfl
  · exact .ok rfl

/-- The value of a scalar with the tag of a type is a scalar. -/
theorem yields_taggedValue (place : Place) (tag : Option String) (text : String) :
    Yields (taggedValue place tag text) fun value => value.isScalar = true := by
  unfold taggedValue
  split
  · split
    · exact .ok rfl
    · exact .error
  split
  · refine .bind (yields_integerValue? place text) fun found hfound => ?_
    split
    · exact .ok (hfound _ rfl)
    · exact .error
  split
  · split
    · exact .ok rfl
    · exact .error
  split
  · split
    · exact .ok rfl
    · exact .error
  · exact .ok rfl

end Scalar

namespace Meaning

open Value (HasKeysApart KeysDiffer)

/-- Whether all that can be found has a property, however many aliases were followed before. -/
def Finds (finding : Finding α) (property : α → Prop) : Prop :=
  ∀ count, Yields (finding count) fun found => property found.1

namespace Finds

variable {property : α → Prop}

/-- Giving a value finds it. -/
theorem pure {value : α} (h : property value) : Finds (Pure.pure value) property :=
  fun _ => .ok h

/-- An error finds nothing. -/
theorem throw {error : Error} : Finds (MonadExcept.throw error) property :=
  fun _ => .error

/-- What follows is found for what was found before. -/
theorem bind {finding : Finding α} {next : α → Finding β} {last : β → Prop}
    (first : Finds finding property) (rest : ∀ value, property value → Finds (next value) last) :
    Finds (finding >>= next) last :=
  fun count => .bind (first count) fun found hfound => rest found.1 hfound found.2

/-- What follows a look at the count is found for every count. -/
theorem bind_get {next : Nat → Finding α} (h : ∀ count, Finds (next count) property) :
    Finds (get >>= next) property :=
  fun count => h count count

/-- What follows a new count is found. -/
theorem bind_set {count : Nat} {next : PUnit → Finding α} (h : Finds (next ⟨⟩) property) :
    Finds (set count >>= next) property :=
  fun _ => h count

/-- Where something stands against going on, nothing is found. -/
theorem refuse {condition : Prop} [Decidable condition] {error : Error} {next : Unit → Finding α}
    (h : ¬ condition → Finds (next ()) property) :
    Finds (if condition then MonadExcept.throw error >>= next else next ()) property := by
  split
  · exact throw.bind (fun _ => False.elim)
  · exact h ‹_›

/-- A computation that follows no alias finds what it yields. -/
theorem lift {result : Except Error α} (h : Yields result property) :
    Finds (liftM result : Finding α) property := by
  intro count
  refine .bind h ?_
  intro value hvalue
  exact .ok hvalue

end Finds

/-- A tag does not change the keys. -/
theorem hasKeysApart_under {value : Value} (tag : Option Tag) (h : value.HasKeysApart) :
    (under tag value).HasKeysApart := by
  unfold under
  split
  · exact .tagged h
  · exact h

/-- The value of a scalar has no keys. -/
theorem yields_scalar (place : Place) (tag : Option Tag) (text : String) (isPlain : Bool) :
    Yields (scalar place tag text isPlain) HasKeysApart := by
  unfold scalar
  split
  · split
    · refine .bind (Scalar.yields_plainValue place text) fun value hvalue => ?_
      exact .ok (hasKeysApart_under tag (.scalar hvalue))
    · exact .ok (hasKeysApart_under tag (.scalar rfl))
  · intro value hvalue
    exact .scalar (Scalar.yields_taggedValue place _ text value hvalue)

/-- Entries whose keys differ from each other and from some keys in front of them. -/
structure Continues (keys : List Value) (entries : List (Value × Value)) : Prop where
  differ : KeysDiffer entries
  fresh : ∀ entry ∈ entries, ∀ key ∈ keys, entry.1.same key = false
  first : ∀ entry ∈ entries, entry.1.HasKeysApart
  second : ∀ entry ∈ entries, entry.2.HasKeysApart

/-- No entries continue all keys. -/
theorem Continues.nil {keys : List Value} : Continues keys [] := ⟨.nil, nofun, nofun, nofun⟩

/-- An entry with a new key, and entries that continue the keys with it. -/
theorem Continues.cons {keys : List Value} {key value : Value} {entries : List (Value × Value)}
    (hkey : key.HasKeysApart) (hvalue : value.HasKeysApart)
    (hnew : ∀ other ∈ keys, key.same other = false)
    (h : Continues (key :: keys) entries) : Continues keys ((key, value) :: entries) where
  differ := .cons (fun entry hentry => h.fresh entry hentry key List.mem_cons_self) h.differ
  fresh := by
    rw [List.forall_mem_cons]
    exact ⟨hnew, fun entry hentry other hother =>
      h.fresh entry hentry other (List.mem_cons_of_mem _ hother)⟩
  first := List.forall_mem_cons.mpr ⟨hkey, h.first⟩
  second := List.forall_mem_cons.mpr ⟨hvalue, h.second⟩

/-- The keys of all mappings that are found differ. Those of a mapping differ from the keys in front
of it, too. The induction is on the fuel, which every step uses. -/
theorem finds_hasKeysApart (meaning : Meaning) (fuel : Nat) :
    (∀ depth node, Finds (value meaning fuel depth node) HasKeysApart) ∧
    (∀ depth nodes, Finds (values meaning fuel depth nodes) fun found =>
      ∀ item ∈ found, item.HasKeysApart) ∧
    ∀ depth place keys nodes,
      Finds (valuesOfEntries meaning fuel depth place keys nodes) (Continues keys) := by
  induction fuel with
  | zero =>
    refine ⟨fun _ _ => .throw, fun _ nodes => ?_, fun _ _ _ nodes => ?_⟩
    · cases nodes with
      | nil => exact .pure nofun
      | cons node nodes => exact .throw
    · cases nodes with
      | nil => exact .pure .nil
      | cons node nodes => exact .throw
  | succ fuel ih =>
    obtain ⟨hvalue, hvalues, hentries⟩ := ih
    refine ⟨fun depth node => ?_, fun depth nodes => ?_, fun depth place keys nodes => ?_⟩
    · cases node with
      | scalar place tag text isPlain => exact .lift (yields_scalar place tag text isPlain)
      | aliasOf place number =>
        rw [value]
        refine .bind_get fun count => .bind_set (.refuse fun _ => ?_)
        split
        · exact hvalue depth _
        · exact .throw
      | broken error => exact .throw
      | sequence place tag items =>
        rw [value]
        refine .refuse fun _ => (hvalues (depth - 1) items).bind fun found hfound => ?_
        exact .pure (hasKeysApart_under tag (.sequence hfound))
      | mapping place tag entries =>
        rw [value]
        refine .refuse fun _ => (hentries (depth - 1) place [] entries).bind fun found hfound => ?_
        exact .pure (hasKeysApart_under tag (.mapping hfound.differ hfound.first hfound.second))
    · cases nodes with
      | nil => exact .pure nofun
      | cons node nodes =>
        rw [values]
        refine (hvalue depth node).bind fun found hfound => ?_
        refine (hvalues depth nodes).bind fun others hothers => ?_
        exact .pure (List.forall_mem_cons.mpr ⟨hfound, hothers⟩)
    · cases nodes with
      | nil => exact .pure .nil
      | cons entry entries =>
        rw [valuesOfEntries]
        -- a key that is among those in front of it makes the document malformed
        refine (hvalue depth entry.1).bind fun key hkey => .refuse fun hnew => ?_
        refine (hvalue depth entry.2).bind fun found hfound => ?_
        refine (hentries depth place (key :: keys) entries).bind fun others hothers => ?_
        exact .pure (.cons hkey hfound (by simpa using hnew) hothers)

/-- The keys of all mappings inside of the value of a document differ. -/
theorem yields_ofDocument (document : Document) : Yields (ofDocument document) HasKeysApart := by
  unfold ofDocument
  split
  · exact .ok (.scalar rfl)
  · next root _ =>
    have hroot := (finds_hasKeysApart ⟨document.anchors, 100 * root.size⟩
      (260 + 130 * root.size)).1 128 root 0
    exact .bind hroot fun _ => .ok

end Meaning

/-- The keys of all mappings inside of the value of a text differ. -/
theorem hasKeysApart_of_parse {text : String} {value : Value} (h : parse text = .ok value) :
    value.HasKeysApart := by
  have hparse : Yields (parse text) Value.HasKeysApart := by
    unfold parse
    dsimp only
    refine .bind (Meaning.yields_ofDocument _) fun value hvalue => ?_
    split
    · exact .bind .error fun _ => False.elim
    · split
      · exact .bind .error fun _ => False.elim
      · exact .ok hvalue
  exact hparse value h

end WorkingCopies.Yaml
