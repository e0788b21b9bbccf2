import WorkingCopies.Git.Command
import WorkingCopies.Proofs.Text.Replace

/-!
# What hiding leaves

Secrets are hidden one after the other, and what is put in for one of them is read again when the
next is hidden. As long as no secret overlaps with anything that is put in, no secret can come up
again, in whatever order they are hidden and however they overlap with each other.
-/

namespace WorkingCopies

open Text (OnlyWithin Overlap)

variable {c : Char} {mask : Mask} {masks : List Mask} {text password : String}

namespace Mask

/-- Hiding a secret works on the characters. -/
theorem toList_hide {first : Char} {part : List Char} (hsecret : mask.secret.toList = first :: part)
    (text : String) :
    (mask.hide text).toList =
      Text.replaceChars first part mask.shown.toList text.toList :=
  Text.toList_replace hsecret mask.shown text

/-- Hiding a secret brings in no word that does not overlap with what is shown. -/
theorem isInfix_of_isInfix_hide {word : List Char} (h : ¬ Overlap word mask.shown.toList)
    (hword : word <:+: (mask.hide text).toList) : word <:+: text.toList := by
  cases hsecret : mask.secret.toList with
  | nil =>
    rw [hide, Text.replace_of_toList_eq_nil hsecret] at hword
    exact hword
  | cons first part =>
    rw [toList_hide hsecret] at hword
    exact Text.isInfix_of_isInfix_replaceChars h hword

/-- A secret that does not overlap with what is shown is gone once it is hidden. -/
theorem not_isInfix_hide (h : ¬ Overlap mask.secret.toList mask.shown.toList) :
    ¬ mask.secret.toList <:+: (mask.hide text).toList := by
  cases hsecret : mask.secret.toList with
  | nil =>
    rw [hsecret] at h
    exact absurd (.inl List.nil_infix) h
  | cons first part =>
    rw [hsecret] at h
    rw [toList_hide hsecret]
    exact Text.not_isInfix_replaceChars h

/-- A text without the secret stays as it is. -/
theorem hide_eq_self (h : ¬ mask.secret.toList <:+: text.toList) : mask.hide text = text := by
  cases hsecret : mask.secret.toList with
  | nil => exact Text.replace_of_toList_eq_nil hsecret mask.shown text
  | cons first part =>
    rw [hsecret] at h
    apply String.toList_injective
    rw [toList_hide hsecret]
    exact Text.replaceChars_eq_self h

/-- A character of a text with a secret hidden was there before, or is shown. -/
theorem mem_of_mem_hide (h : c ∈ (mask.hide text).toList) :
    c ∈ text.toList ∨ c ∈ mask.shown.toList := by
  cases hsecret : mask.secret.toList with
  | nil =>
    rw [hide, Text.replace_of_toList_eq_nil hsecret] at h
    exact .inl h
  | cons first part =>
    rw [toList_hide hsecret] at h
    exact Text.mem_of_mem_replaceChars h

/-- A character that stands nowhere but in copies of the secret is gone, unless it is shown. -/
theorem not_mem_hide (h : OnlyWithin c mask.secret.toList text.toList) (hshown : c ∉ mask.shown.toList) :
    c ∉ (mask.hide text).toList := by
  by_cases hc : c ∈ mask.secret.toList
  · cases hsecret : mask.secret.toList with
    | nil =>
      rw [hsecret] at hc
      cases hc
    | cons first part =>
      rw [hsecret] at h hc
      rw [toList_hide hsecret]
      exact h.not_mem_replaceChars hc hshown
  · intro hmem
    rcases mem_of_mem_hide hmem with htext | hmask
    · exact h.not_mem hc htext
    · exact hshown hmask

/-- Whether no secret overlaps with anything that is shown in place of a secret. As the empty text
is a part of every text, neither the secrets nor the shown texts are empty then. -/
def Apart (masks : List Mask) : Prop :=
  ∀ mask ∈ masks, ∀ other ∈ masks, ¬ Overlap mask.secret.toList other.shown.toList

instance (masks : List Mask) : Decidable (Apart masks) :=
  inferInstanceAs (Decidable (∀ mask ∈ masks, ∀ other ∈ masks, ¬ Overlap _ _))

/-- Hiding several secrets brings in no word that does not overlap with anything that is shown. -/
theorem isInfix_of_isInfix_hideAll {word : List Char}
    (h : ∀ mask ∈ masks, ¬ Overlap word mask.shown.toList)
    (hword : word <:+: (hideAll masks text).toList) : word <:+: text.toList := by
  induction masks generalizing text with
  | nil => exact hword
  | cons mask masks ih =>
    have hlater : word <:+: (mask.hide text).toList :=
      ih (fun other hother => h other (List.mem_cons_of_mem mask hother)) hword
    exact isInfix_of_isInfix_hide (h mask List.mem_cons_self) hlater

/-- Once all are hidden, each secret is gone: hiding one takes it out, and hiding the others brings
it in nowhere. -/
theorem not_isInfix_hideAll (h : Apart masks) (hmask : mask ∈ masks) :
    ¬ mask.secret.toList <:+: (hideAll masks text).toList := by
  have hall : ∀ other ∈ masks, ¬ Overlap mask.secret.toList other.shown.toList := h mask hmask
  obtain ⟨earlier, later, hsplit⟩ := List.append_of_mem hmask
  rw [hsplit, hideAll, List.foldl_append]
  intro hword
  have hlater : ∀ other ∈ mask :: later, ¬ Overlap mask.secret.toList other.shown.toList := by
    intro other hother
    apply hall
    rw [hsplit]
    exact List.mem_append_right earlier hother
  have hhidden : mask.secret.toList <:+: (mask.hide (hideAll earlier text)).toList :=
    isInfix_of_isInfix_hideAll (fun other hother => hlater other (List.mem_cons_of_mem mask hother))
      hword
  exact not_isInfix_hide (hlater mask List.mem_cons_self) hhidden

end Mask

/-- A redacted text lacks the password, if that does not overlap with what is shown. -/
theorem not_isInfix_redact (h : ¬ Overlap password.toList hiddenPassword.toList) :
    ¬ password.toList <:+: (redact password text).toList :=
  @Mask.not_isInfix_hide ⟨password, hiddenPassword⟩ text h

/-- Redacting twice is redacting once, if the password does not overlap with what is shown. -/
theorem redact_redact (h : ¬ Overlap password.toList hiddenPassword.toList) (text : String) :
    redact password (redact password text) = redact password text :=
  Mask.hide_eq_self (not_isInfix_redact h)

/-- A character that stands nowhere but in copies of the password is gone once it is redacted. -/
theorem not_mem_redact (h : OnlyWithin c password.toList text.toList)
    (hshown : c ∉ hiddenPassword.toList) : c ∉ (redact password text).toList :=
  Mask.not_mem_hide h hshown

/-- A command has to hide what its arguments have to be hidden for: a secret that does not overlap
with what is shown is neither empty nor shown as it is. -/
theorem Git.Command.masks_of_apart (h : Mask.Apart masks) :
    (⟨masks.map fun mask => ⟨mask.secret, mask.shown⟩, none⟩ : Git.Command).masks = masks := by
  have hkept : ∀ mask ∈ masks, mask.secret ≠ "" ∧ mask.secret ≠ mask.shown := by
    intro mask hmask
    have happart : ¬ Overlap mask.secret.toList mask.shown.toList := h mask hmask mask hmask
    constructor
    · intro hempty
      rw [hempty] at happart
      exact happart (.inl List.nil_infix)
    · intro hsame
      rw [hsame] at happart
      exact happart (.inl List.infix_rfl)
  unfold Git.Command.masks
  rw [List.filterMap_map]
  calc
    masks.filterMap _ = masks.filterMap some := by
      apply List.filterMap_congr
      intro mask hmask
      simp [hkept mask hmask]
    _ = masks := List.filterMap_some

/-- What a command shows of a text lacks every secret of the command, whatever the secrets have in
common and in whatever order they are hidden, as long as none of them overlaps with anything that is
shown; any secrets that are apart in this way are those of some command. A redacted text lacks a
password that does not overlap with what is shown for it, and redacting it again changes nothing. -/
theorem masked_lacks_secrets (h : Mask.Apart masks)
    (hpassword : ¬ Overlap password.toList hiddenPassword.toList) (text : String) :
    (∃ command : Git.Command, command.masks = masks) ∧
      (∀ command : Git.Command, command.masks = masks →
        ∀ mask ∈ masks, ¬ mask.secret.toList <:+: (command.mask text).toList) ∧
      ¬ password.toList <:+: (redact password text).toList ∧
      redact password (redact password text) = redact password text := by
  have hhidden (command : Git.Command) (hmasks : command.masks = masks) (mask : Mask)
      (hmask : mask ∈ masks) : ¬ mask.secret.toList <:+: (command.mask text).toList := by
    rw [Git.Command.mask, hmasks]
    exact Mask.not_isInfix_hideAll h hmask
  have hredacted : ¬ password.toList <:+: (redact password text).toList :=
    not_isInfix_redact hpassword
  exact ⟨⟨_, Git.Command.masks_of_apart h⟩, hhidden, hredacted, redact_redact hpassword text⟩

/-- Two secrets that overlap with each other are both gone, though hiding the first one cuts into
the other. -/
theorem masked_lacks_secrets_of_overlapping :
    Overlap "aba".toList "bab".toList ∧
      Mask.Apart [⟨"aba", "<1>"⟩, ⟨"bab", "<2>"⟩] ∧
      ¬ Overlap "pw".toList hiddenPassword.toList ∧
      (⟨[⟨"aba", "<1>"⟩, ⟨"bab", "<2>"⟩], none⟩ : Git.Command).mask "ababab pw" = "<1><2> pw" ∧
      ∀ mask ∈ [(⟨"aba", "<1>"⟩ : Mask), ⟨"bab", "<2>"⟩],
        ¬ mask.secret.toList <:+:
          ((⟨[⟨"aba", "<1>"⟩, ⟨"bab", "<2>"⟩], none⟩ : Git.Command).mask "ababab pw").toList := by
  have happart : Mask.Apart [⟨"aba", "<1>"⟩, ⟨"bab", "<2>"⟩] := by decide +kernel
  have hpassword : ¬ Overlap "pw".toList hiddenPassword.toList := by decide +kernel
  have hlacks := (masked_lacks_secrets happart hpassword "ababab pw").2.1
  exact ⟨by decide +kernel, happart, hpassword, by decide +kernel, hlacks _ (by decide +kernel)⟩

end WorkingCopies
