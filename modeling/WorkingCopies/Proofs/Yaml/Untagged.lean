import WorkingCopies.Yaml.Value

/-!
# Values without tags

Tags are looked through where a text or a list of texts is wanted. A value without tags is therefore
such a text or such a list only if it is one itself.
-/

namespace WorkingCopies.Yaml.Value

mutual

/-- Whether a value has no tag, and none inside of it. -/
def isUntagged : Value → Bool
  | tagged .. => false
  | sequence items => areUntagged items
  | mapping entries => haveNoTags entries
  | _ => true

/-- Whether values have no tags. -/
def areUntagged : List Value → Bool
  | [] => true
  | item :: items => item.isUntagged && areUntagged items

/-- Whether the keys and values of a mapping have no tags. -/
def haveNoTags : List (Value × Value) → Bool
  | [] => true
  | (key, value) :: entries => key.isUntagged && value.isUntagged && haveNoTags entries

end

/-- Whether a value is a list of texts. Nothing counts as the empty list. -/
def ListsTexts (value : Value) : Prop :=
  value = .null ∨ ∃ texts : List String, value = .sequence (texts.map .text)

variable {value : Value} {items : List Value} {entries : List (Value × Value)}
  {text expected : String}

/-- A sequence has no tags if its items have none. -/
theorem isUntagged_sequence_iff :
    (sequence items).isUntagged = true ↔ ∀ item ∈ items, item.isUntagged = true := by
  rw [isUntagged]
  induction items with
  | nil => simp [areUntagged]
  | cons item items ih => rw [areUntagged, Bool.and_eq_true, ih, List.forall_mem_cons]

/-- A mapping has no tags if its keys and values have none. -/
theorem isUntagged_mapping_iff :
    (mapping entries).isUntagged = true ↔
      ∀ entry ∈ entries, entry.1.isUntagged = true ∧ entry.2.isUntagged = true := by
  rw [isUntagged]
  induction entries with
  | nil => simp [haveNoTags]
  | cons entry entries ih =>
    rw [haveNoTags, Bool.and_eq_true, Bool.and_eq_true, ih, List.forall_mem_cons]

/-- The keys of a mapping without tags have none. -/
theorem keys_untagged (h : (mapping entries).isUntagged = true) :
    ∀ entry ∈ entries, entry.1.isUntagged = true :=
  fun entry hentry => (isUntagged_mapping_iff.mp h entry hentry).1

/-- Nor have its values. -/
theorem values_untagged (h : (mapping entries).isUntagged = true) :
    ∀ entry ∈ entries, entry.2.isUntagged = true :=
  fun entry hentry => (isUntagged_mapping_iff.mp h entry hentry).2

/-- A value without tags is what is left of it without its tags. -/
theorem untagged_eq (h : value.isUntagged = true) : value.untagged = value := by
  cases value with
  | tagged => cases h
  | _ => rfl

/-- A value without tags is a text if it is that text. -/
theorem text?_eq_some_iff (h : value.isUntagged = true) :
    value.text? = some text ↔ value = .text text := by
  unfold text?
  rw [untagged_eq h]
  cases value <;> simp

/-- Where a text is wanted, just texts are taken. -/
theorem asText_eq_ok_iff : value.asText expected = .ok text ↔ value.text? = some text := by
  unfold asText text?
  cases value.untagged <;> simp

/-- Texts are read from values without tags where the values are these texts. -/
theorem mapM_asText_eq_ok_iff {texts : List String}
    (h : ∀ item ∈ items, item.isUntagged = true) :
    (items.mapM fun item => item.asText expected) = .ok texts ↔ items = texts.map .text := by
  induction items generalizing texts with
  | nil => cases texts <;> simp [pure, Except.pure]
  | cons item items ih =>
    obtain ⟨hitem, hitems⟩ := List.forall_mem_cons.mp h
    have hfirst (text : String) : item.asText expected = .ok text ↔ item = .text text :=
      asText_eq_ok_iff.trans (text?_eq_some_iff hitem)
    have hrest (texts : List String) := @ih texts hitems
    rw [List.mapM_cons]
    cases hread : item.asText expected with
    | error failure => cases texts <;> simp [bind, Except.bind, ← hfirst, hread]
    | ok first =>
      obtain rfl := (hfirst first).mp hread
      cases hmore : items.mapM fun item => item.asText expected with
      | error failure => cases texts <;> simp [bind, Except.bind, ← hrest, hmore]
      | ok more => cases texts <;> simp [bind, Except.bind, pure, Except.pure, ← hrest, hmore]

/-- A list of texts is read from a value without tags if the value is one. -/
theorem exists_asTexts_iff (h : value.isUntagged = true) :
    (∃ texts, value.asTexts = .ok texts) ↔ value.ListsTexts := by
  unfold asTexts ListsTexts
  rw [untagged_eq h]
  cases value with
  | sequence items => simp [mapM_asText_eq_ok_iff (isUntagged_sequence_iff.mp h)]
  | _ => simp

end WorkingCopies.Yaml.Value
