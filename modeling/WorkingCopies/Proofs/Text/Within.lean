import Mathlib.Data.List.Basic
import WorkingCopies.Text.Blank

/-!
# Characters that stand nowhere but in a secret

A character may occur in a text only as a part of copies of some secret. The text then has the
character exactly if it has the secret, and so has the text without the white space at its ends,
since a secret that neither starts nor ends with white space loses nothing.
-/

namespace WorkingCopies.Text

variable {c : Char} {secret text : List Char}

/-- A text that has a character nowhere but in copies of a secret. -/
inductive OnlyWithin (c : Char) (secret : List Char) : List Char → Prop where
  | nil : OnlyWithin c secret []
  | other {x : Char} {text : List Char} (hx : x ≠ c) (h : OnlyWithin c secret text) :
      OnlyWithin c secret (x :: text)
  | copy {text : List Char} (h : OnlyWithin c secret text) : OnlyWithin c secret (secret ++ text)

/-- What lacks the character may stand before such a text. -/
theorem OnlyWithin.append_of_not_mem {first : List Char} (hfirst : c ∉ first)
    (h : OnlyWithin c secret text) : OnlyWithin c secret (first ++ text) := by
  induction first with
  | nil => exact h
  | cons x first ih =>
    rw [List.mem_cons, not_or] at hfirst
    exact .other (Ne.symm hfirst.1) (ih hfirst.2)

/-- A text that has the character has the secret. -/
theorem OnlyWithin.isInfix_of_mem (h : OnlyWithin c secret text) (hc : c ∈ text) :
    secret <:+: text := by
  induction h with
  | nil => cases hc
  | other hx _ ih =>
    rcases List.mem_cons.mp hc with rfl | hc
    · exact absurd rfl hx
    · exact (ih hc).trans (List.suffix_cons _ _).isInfix
  | copy _ _ => exact (List.prefix_append _ _).isInfix

/-- Leaving out white space at the start keeps every part that does not start with it. -/
theorem isInfix_dropWhile_isBlank {x : Char} {rest : List Char} (hx : isBlank x = false)
    (h : x :: rest <:+: text) : x :: rest <:+: text.dropWhile isBlank := by
  obtain ⟨before, after, rfl⟩ := h
  rw [List.append_assoc, List.dropWhile_append]
  split
  · rw [List.cons_append, List.dropWhile_cons_of_neg (by simp [hx])]
    exact (List.prefix_append (x :: rest) after).isInfix
  · exact ⟨before.dropWhile isBlank, after, by rw [List.append_assoc]⟩

/-- A text that neither starts nor ends with white space, and is not empty. -/
def NoBlankEnds (secret : List Char) : Prop :=
  ∃ x middle y, secret = x :: middle ++ [y] ∧ isBlank x = false ∧ isBlank y = false

/-- Trimming keeps every part that neither starts nor ends with white space. -/
theorem isInfix_trimChars (hends : NoBlankEnds secret) (h : secret <:+: text) :
    secret <:+: trimChars text := by
  obtain ⟨x, middle, y, rfl, hx, hy⟩ := hends
  have hstart := isInfix_dropWhile_isBlank hx h
  have hreversed : y :: (x :: middle).reverse <:+: (text.dropWhile isBlank).reverse := by
    rw [← List.reverse_infix] at hstart
    simpa using hstart
  have hend := isInfix_dropWhile_isBlank hy hreversed
  rw [← List.reverse_infix] at hend
  simpa [trimChars] using hend

/-- Trimming brings in no character. -/
theorem mem_of_mem_trimChars (h : c ∈ trimChars text) : c ∈ text := by
  unfold trimChars at h
  rw [List.mem_reverse] at h
  have hstart := (List.dropWhile_suffix isBlank).mem h
  rw [List.mem_reverse] at hstart
  exact (List.dropWhile_suffix isBlank).mem hstart

/-- A trimmed text has the character exactly if the text has the secret. -/
theorem OnlyWithin.mem_trimChars_iff (hends : NoBlankEnds secret) (hc : c ∈ secret)
    (h : OnlyWithin c secret text) : c ∈ trimChars text ↔ secret <:+: text :=
  ⟨fun hmem => h.isInfix_of_mem (mem_of_mem_trimChars hmem),
    fun hinfix => (isInfix_trimChars hends hinfix).mem hc⟩

/-- A text without the character is such a text. -/
theorem OnlyWithin.of_not_mem (h : c ∉ text) : OnlyWithin c secret text := by
  have hempty : OnlyWithin c secret (text ++ []) := OnlyWithin.nil.append_of_not_mem h
  rwa [List.append_nil] at hempty

/-- Copies of a text without the character do not bring it in. -/
theorem OnlyWithin.not_mem (hsecret : c ∉ secret) (h : OnlyWithin c secret text) : c ∉ text := by
  induction h with
  | nil => simp
  | other hx _ ih => simp [Ne.symm hx, ih]
  | copy _ ih => simp [hsecret, ih]

/-- Two such texts in a row are one. -/
theorem OnlyWithin.append {more : List Char} (h : OnlyWithin c secret text)
    (hmore : OnlyWithin c secret more) : OnlyWithin c secret (text ++ more) := by
  induction h with
  | nil => exact hmore
  | other hx _ ih => exact .other hx ih
  | copy _ ih =>
    rw [List.append_assoc]
    exact .copy ih

/-- Read backwards, the text has the character in copies of the secret read backwards. -/
theorem OnlyWithin.reverse (h : OnlyWithin c secret text) :
    OnlyWithin c secret.reverse text.reverse := by
  induction h with
  | nil => exact .nil
  | other hx _ ih =>
    rw [List.reverse_cons]
    exact ih.append (.other hx .nil)
  | copy _ ih =>
    have hcopy : OnlyWithin c secret.reverse (secret.reverse ++ []) := .copy .nil
    rw [List.append_nil] at hcopy
    rw [List.reverse_append]
    exact ih.append hcopy

/-- Leaving out white space at the start cuts into no copy of a secret that does not start with it. -/
theorem OnlyWithin.dropWhile_isBlank {x : Char} {rest : List Char} (hx : isBlank x = false)
    (h : OnlyWithin c (x :: rest) text) : OnlyWithin c (x :: rest) (text.dropWhile isBlank) := by
  induction h with
  | nil => exact .nil
  | @other y text hy h ih =>
    by_cases hblank : isBlank y = true
    · rw [List.dropWhile_cons_of_pos hblank]
      exact ih
    · rw [List.dropWhile_cons_of_neg hblank]
      exact .other hy h
  | copy h _ =>
    rw [List.cons_append, List.dropWhile_cons_of_neg (by simp [hx])]
    exact .copy h

/-- Trimming cuts into no copy of a secret that neither starts nor ends with white space. -/
theorem OnlyWithin.trimChars (hends : NoBlankEnds secret) (h : OnlyWithin c secret text) :
    OnlyWithin c secret (trimChars text) := by
  obtain ⟨x, middle, y, rfl, hx, hy⟩ := hends
  have hstart : OnlyWithin c (x :: (middle ++ [y])) (text.dropWhile isBlank) :=
    h.dropWhile_isBlank hx
  have hreversed : (x :: (middle ++ [y])).reverse = y :: (x :: middle).reverse := by simp
  have hback := hstart.reverse
  rw [hreversed] at hback
  have hend := (hback.dropWhile_isBlank hy).reverse
  rw [← hreversed, List.reverse_reverse] at hend
  exact hend

/-- A character that stands in copies of a secret stands in copies of the part of it that has the
character. -/
theorem OnlyWithin.inside {before part after : List Char} (hbefore : c ∉ before)
    (hafter : c ∉ after) (h : OnlyWithin c (before ++ (part ++ after)) text) :
    OnlyWithin c part text := by
  generalize hsecret : before ++ (part ++ after) = secret at h
  induction h with
  | nil => exact .nil
  | other hx _ ih => exact .other hx ih
  | copy _ ih =>
    rw [← hsecret, List.append_assoc, List.append_assoc]
    exact (OnlyWithin.copy (ih.append_of_not_mem hafter)).append_of_not_mem hbefore

/-- The first character of its kind stands in the first copy of the secret. -/
theorem OnlyWithin.exists_first (h : OnlyWithin c secret text) (hc : c ∈ text) :
    ∃ before rest, text = before ++ (secret ++ rest) ∧ c ∉ before ∧ OnlyWithin c secret rest := by
  induction h with
  | nil => cases hc
  | @other x text hx _ ih =>
    have htext : c ∈ text := by simpa [Ne.symm hx] using hc
    obtain ⟨before, rest, hsplit, hbefore, hrest⟩ := ih htext
    refine ⟨x :: before, rest, by rw [hsplit, List.cons_append], ?_, hrest⟩
    simp [Ne.symm hx, hbefore]
  | copy h _ => exact ⟨[], _, rfl, by simp, h⟩

/-- Behind a copy of the secret at its start, the text is such a text again. -/
theorem OnlyWithin.of_copy {rest : List Char} (hc : c ∈ secret)
    (h : OnlyWithin c secret (secret ++ rest)) : OnlyWithin c secret rest := by
  obtain ⟨before, others, hsplit, hbefore, hothers⟩ :=
    h.exists_first (List.mem_append_left rest hc)
  -- the character is found as far from the start of the text as from the start of the first copy
  have hindex : List.idxOf c (secret ++ rest) = List.idxOf c secret := List.idxOf_append_of_mem hc
  rw [hsplit, List.idxOf_append_of_notMem hbefore, List.idxOf_append_of_mem hc] at hindex
  have hstart : before = [] := List.length_eq_zero_iff.mp (by omega)
  rw [hstart, List.nil_append] at hsplit
  rw [List.append_cancel_left hsplit]
  exact hothers

end WorkingCopies.Text
