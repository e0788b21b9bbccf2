import Mathlib.Data.List.Basic
import Mathlib.Data.List.Infix
import WorkingCopies.Proofs.Text.Within
import WorkingCopies.Text.Replace

/-!
# What a replacement leaves

Replacing one text by another can only bring in a text that touches what was put in. A text that
does not overlap with it occurs behind the replacement where it occurred before, or not at all; the
replaced text itself is gone.
-/

namespace WorkingCopies.Text

variable {first : Char} {part new text word : List Char}

/-- Whether an end of one text, which is not empty, is a start of another. -/
def RunsInto (text other : List Char) : Prop := ∃ shared ∈ text.tails, shared ≠ [] ∧ shared <+: other

instance (text other : List Char) : Decidable (RunsInto text other) :=
  inferInstanceAs (Decidable (∃ shared ∈ text.tails, shared ≠ [] ∧ shared <+: other))

/-- Whether two texts overlap: one of them is a part of the other, or one of them runs into the
other. The empty text is a part of every text. -/
def Overlap (text other : List Char) : Prop :=
  text <:+: other ∨ other <:+: text ∨ RunsInto text other ∨ RunsInto other text

instance (text other : List Char) : Decidable (Overlap text other) :=
  inferInstanceAs (Decidable (_ ∨ _ ∨ _ ∨ _))

/-- A part that two texts share at an end of the one and the start of the other is empty where they
do not overlap. -/
theorem eq_nil_of_not_overlap {shared : List Char} (h : ¬ Overlap word new) :
    (shared <:+ word → shared <+: new → shared = []) ∧
      (shared <:+ new → shared <+: word → shared = []) := by
  constructor
  · intro hend hstart
    by_contra hne
    exact h (.inr (.inr (.inl ⟨shared, (List.mem_tails _ _).mpr hend, hne, hstart⟩)))
  · intro hend hstart
    by_contra hne
    exact h (.inr (.inr (.inr ⟨shared, (List.mem_tails _ _).mpr hend, hne, hstart⟩)))

/-- No end of a word, unless it is empty, starts in front of a text that does not overlap with the
word. -/
theorem eq_nil_of_prefix_append {shared rest : List Char} (h : ¬ Overlap word new)
    (hend : shared <:+ word) (hstart : shared <+: new ++ rest) : shared = [] := by
  rcases List.prefix_or_prefix_of_prefix hstart (List.prefix_append new rest) with hshort | hlong
  · exact (eq_nil_of_not_overlap h).1 hend hshort
  · exact absurd (.inr (.inl (hlong.isInfix.trans hend.isInfix))) h

/-- A word stands in a text behind another one that it does not overlap with, if it stands in the
two in a row. -/
theorem isInfix_of_append {rest : List Char} (h : ¬ Overlap word new)
    (hword : word <:+: new ++ rest) : word <:+: rest := by
  rcases List.infix_append_iff.mp hword with hnew | hrest | hseam
  · exact absurd (.inl hnew) h
  · exact hrest
  · obtain ⟨before, after, hsplit, hend, hstart⟩ := hseam
    -- what lies in front of the seam is an end of the one and a start of the other, so it is empty
    have hbefore : before = [] :=
      (eq_nil_of_not_overlap h).2 hend (hsplit ▸ List.prefix_append before after)
    rw [hsplit, hbefore, List.nil_append]
    exact hstart.isInfix

/-- What the text starts with behind a replacement, and what can be an end of a word that does not
overlap with the new text, is what the text started with before. -/
theorem prefix_of_prefix_replaceChars {shared : List Char} (h : ¬ Overlap word new)
    (hend : shared <:+ word) (hstart : shared <+: replaceChars first part new text) :
    shared <+: text := by
  induction text using replaceChars.induct first part generalizing shared with
  | case1 =>
    rw [replaceChars] at hstart
    exact hstart
  | case2 c text rest hfound _ =>
    rw [replaceChars, hfound] at hstart
    rw [eq_nil_of_prefix_append h hend hstart]
    exact List.nil_prefix
  | case3 c text hmissing ih =>
    rw [replaceChars, hmissing] at hstart
    cases shared with
    | nil => exact List.nil_prefix
    | cons x shared =>
      obtain ⟨rfl, hshared⟩ := List.cons_prefix_cons.mp hstart
      exact List.cons_prefix_cons.mpr ⟨rfl, ih ((List.suffix_cons _ _).trans hend) hshared⟩

/-- A replacement brings in no word that does not overlap with the new text. -/
theorem isInfix_of_isInfix_replaceChars (h : ¬ Overlap word new)
    (hword : word <:+: replaceChars first part new text) : word <:+: text := by
  induction text using replaceChars.induct first part with
  | case1 =>
    rw [replaceChars] at hword
    exact hword
  | case2 c text rest hfound ih =>
    rw [replaceChars, hfound] at hword
    rw [eq_append_of_stripInitial? hfound]
    exact (ih (isInfix_of_append h hword)).trans (List.suffix_append _ _).isInfix
  | case3 c text hmissing ih =>
    have hstart := @prefix_of_prefix_replaceChars first part new (c :: text) word word h
      (List.suffix_refl word)
    rw [replaceChars, hmissing] at hword hstart
    rcases List.infix_cons_iff.mp hword with hprefix | hrest
    · exact (hstart hprefix).isInfix
    · exact (ih hrest).trans (List.suffix_cons c text).isInfix

/-- A text that does not overlap with what is put in its place is gone behind a replacement. -/
theorem not_isInfix_replaceChars (h : ¬ Overlap (first :: part) new) :
    ¬ first :: part <:+: replaceChars first part new text := by
  intro hword
  induction text using replaceChars.induct first part with
  | case1 =>
    rw [replaceChars] at hword
    exact absurd (List.infix_nil.mp hword) (by simp)
  | case2 c text rest hfound ih =>
    rw [replaceChars, hfound] at hword
    exact ih (isInfix_of_append h hword)
  | case3 c text hmissing ih =>
    have hstart := @prefix_of_prefix_replaceChars first part new (c :: text) (first :: part) _ h
      (List.suffix_refl _)
    rw [replaceChars, hmissing] at hword hstart
    rcases List.infix_cons_iff.mp hword with hprefix | hrest
    · -- the text would have been found where it starts
      obtain ⟨rest, hrest⟩ := hstart hprefix
      rw [← hrest, stripInitial?_append] at hmissing
      cases hmissing
    · exact ih hrest

/-- A text stays as it is if the replaced one does not occur in it. -/
theorem replaceChars_eq_self (h : ¬ first :: part <:+: text) :
    replaceChars first part new text = text := by
  induction text using replaceChars.induct first part with
  | case1 => rw [replaceChars]
  | case2 c text rest hfound _ =>
    rw [eq_append_of_stripInitial? hfound] at h
    exact absurd (List.prefix_append _ _).isInfix h
  | case3 c text hmissing ih =>
    rw [replaceChars, hmissing]
    have hrest : ¬ first :: part <:+: text :=
      fun hword => h (hword.trans (List.suffix_cons c text).isInfix)
    exact congrArg (c :: ·) (ih hrest)

/-- What is read behind a replacement was there before, or was put in. -/
theorem mem_of_mem_replaceChars {c : Char} (h : c ∈ replaceChars first part new text) :
    c ∈ text ∨ c ∈ new := by
  induction text using replaceChars.induct first part with
  | case1 =>
    rw [replaceChars] at h
    exact .inl h
  | case2 x text rest hfound ih =>
    rw [replaceChars, hfound] at h
    rcases List.mem_append.mp h with hnew | hrest
    · exact .inr hnew
    · apply (ih hrest).imp_left
      intro hc
      rw [eq_append_of_stripInitial? hfound]
      exact List.mem_append_right _ hc
  | case3 x text hmissing ih =>
    rw [replaceChars, hmissing] at h
    rcases List.mem_cons.mp h with rfl | hrest
    · exact .inl List.mem_cons_self
    · exact (ih hrest).imp_left (List.mem_cons_of_mem x)

/-- A character that stands nowhere but in copies of the replaced text is gone, unless it is put
in. -/
theorem OnlyWithin.not_mem_replaceChars {c : Char} (h : OnlyWithin c (first :: part) text)
    (hc : c ∈ first :: part) (hnew : c ∉ new) : c ∉ replaceChars first part new text := by
  induction text using replaceChars.induct first part with
  | case1 => simp [replaceChars]
  | case2 x text rest hfound ih =>
    rw [replaceChars, hfound]
    rw [eq_append_of_stripInitial? hfound] at h
    simp only [List.mem_append, not_or]
    exact ⟨hnew, ih (h.of_copy hc)⟩
  | case3 x text hmissing ih =>
    rw [replaceChars, hmissing]
    generalize htext : x :: text = whole at h
    cases h with
    | nil => cases htext
    | other hx hrest =>
      obtain ⟨rfl, rfl⟩ := List.cons.inj htext
      simp only [List.mem_cons, not_or]
      exact ⟨Ne.symm hx, ih hrest⟩
    | copy _ =>
      rw [htext, stripInitial?_append] at hmissing
      cases hmissing

/-- Replacing works on the characters. -/
theorem toList_replace {old : String} (hold : old.toList = first :: part) (shown whole : String) :
    (replace old shown whole).toList =
      replaceChars first part shown.toList whole.toList := by
  rw [replace, hold]
  simp

/-- The empty text is replaced nowhere. -/
theorem replace_of_toList_eq_nil {old : String} (hold : old.toList = []) (shown whole : String) :
    replace old shown whole = whole := by
  rw [replace, hold]

end WorkingCopies.Text
