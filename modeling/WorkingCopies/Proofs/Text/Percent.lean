import Mathlib.Data.String.Basic
import WorkingCopies.Text.Hexadecimal
import WorkingCopies.Text.Utf8

/-!
# Bytes behind percent signs

A percent sign and two hexadecimal digits stand for a byte. A text without percent signs stands for
its own bytes, and every one of them makes it stand for two bytes fewer, so no other text stands for
as many bytes as it has.
-/

namespace WorkingCopies.Text

variable {text : List Char} {bytes : Bytes}

/-- The bytes that a text stands for; a percent sign without two hexadecimal digits behind it stands
for none. -/
def percentDecode? : List Char → Option Bytes
  | [] => some []
  | c :: text =>
    if c = '%' then
      match text with
      | high :: low :: text => do
        let first ← hexValue? high
        let second ← hexValue? low
        return UInt8.ofNat (first * 16 + second) :: (← percentDecode? text)
      | _ => none
    else do return encode c.toString ++ (← percentDecode? text)

/-- A character that is no percent sign stands for its own bytes. -/
theorem percentDecode?_cons {c : Char} (hc : c ≠ '%') :
    percentDecode? (c :: text) = (percentDecode? text).map (encode c.toString ++ ·) := by
  rw [percentDecode?.eq_def]
  dsimp only
  rw [if_neg hc]
  cases percentDecode? text <;> rfl

/-- A percent sign stands for a byte together with the two digits behind it. -/
theorem of_percentDecode?_percent (h : percentDecode? ('%' :: text) = some bytes) :
    ∃ high low rest first second byte others, text = high :: low :: rest ∧
      hexValue? high = some first ∧ hexValue? low = some second ∧
      percentDecode? rest = some others ∧ bytes = byte :: others := by
  rw [percentDecode?.eq_def] at h
  dsimp only at h
  rw [if_pos rfl] at h
  split at h
  · next high low rest =>
    cases hfirst : hexValue? high with
    | none => simp [hfirst] at h
    | some first =>
      cases hsecond : hexValue? low with
      | none => simp [hfirst, hsecond] at h
      | some second =>
        cases hothers : percentDecode? rest with
        | none => simp [hfirst, hsecond, hothers] at h
        | some others =>
          have hbytes : UInt8.ofNat (first * 16 + second) :: others = bytes := by
            simpa [hfirst, hsecond, hothers] using h
          exact ⟨high, low, rest, first, second, _, others, rfl, hfirst, hsecond, hothers,
            hbytes.symm⟩
  · cases h

/-- A hexadecimal digit is one byte long, and no percent sign. -/
theorem of_hexValue?_eq_some {c : Char} {value : Nat} (h : hexValue? c = some value) :
    c.utf8Size = 1 ∧ c ≠ '%' := by
  have hrange : c ≤ 'f' ∧ '0' ≤ c := by
    unfold hexValue? at h
    split at h
    · next hdigit =>
      simp only [Bool.and_eq_true, decide_eq_true_eq] at hdigit
      exact ⟨hdigit.2.trans (by decide), hdigit.1⟩
    · split at h
      · next hlower =>
        simp only [Bool.and_eq_true, decide_eq_true_eq] at hlower
        exact ⟨hlower.2, le_trans (by decide) hlower.1⟩
      · split at h
        · next hupper =>
          simp only [Bool.and_eq_true, decide_eq_true_eq] at hupper
          exact ⟨hupper.2.trans (by decide), le_trans (by decide) hupper.1⟩
        · cases h
  constructor
  · have hbyte : c.val ≤ 'f'.val := hrange.1
    have hlast : 'f'.val ≤ 127 := by decide
    exact Char.utf8Size_eq_one_iff.mpr (UInt32.le_trans hbyte hlast)
  · intro hpercent
    rw [hpercent] at hrange
    exact absurd hrange.2 (by decide)

/-- Listing the bytes of an array from a position on. -/
theorem toList_loop_eq (array : ByteArray) (position : Nat) (listed : Bytes) :
    ByteArray.toList.loop array position listed =
      listed.reverse ++ array.data.toList.drop position := by
  fun_induction ByteArray.toList.loop array position listed with
  | case1 position listed hmore ih =>
    have hbyte : array.get! position = array.data.toList.get ⟨position, hmore⟩ := by
      show array.data[position]! = _
      rw [getElem!_pos array.data position hmore]
      rfl
    rw [ih, List.reverse_cons, List.append_assoc, List.drop_eq_getElem_cons hmore, hbyte]
    rfl
  | case2 position listed hend =>
    rw [List.drop_eq_nil_of_le (Nat.le_of_not_lt hend), List.append_nil]

/-- The bytes of two texts in a row are those of both. -/
theorem encode_append (first second : String) :
    encode (first ++ second) = encode first ++ encode second := by
  have hlisted (text : String) : encode text = text.toByteArray.data.toList := by
    show ByteArray.toList.loop _ 0 [] = _
    rw [toList_loop_eq]
    simp
  rw [hlisted, hlisted, hlisted, String.toByteArray_append]
  simp

/-- A text without percent signs stands for its own bytes. -/
theorem percentDecode?_of_not_mem (h : '%' ∉ text) :
    percentDecode? text = some (encode (String.ofList text)) := by
  induction text with
  | nil =>
    have hempty : encode (String.ofList []) = [] := encode_eq_nil_iff.mpr rfl
    rw [hempty]
    rfl
  | cons c text ih =>
    rw [List.mem_cons, not_or] at h
    have hcons : String.ofList (c :: text) = c.toString ++ String.ofList text := by
      apply String.toList_injective
      simp
    rw [percentDecode?_cons (Ne.symm h.1), ih h.2, hcons, encode_append]
    rfl

/-- What a text stands for is shorter by two bytes for every percent sign. -/
theorem length_of_percentDecode? (h : percentDecode? text = some bytes) :
    bytes.length + 2 * text.count '%' = String.utf8Len text := by
  induction text using percentDecode?.induct generalizing bytes with
  | case1 =>
    obtain rfl := Option.some.inj h
    rfl
  | case2 high low text ih =>
    obtain ⟨_, _, _, _, _, _, others, hsplit, hfirst, hsecond, hothers, rfl⟩ :=
      of_percentDecode?_percent h
    cases hsplit
    obtain ⟨hhigh, hhighOther⟩ := of_hexValue?_eq_some hfirst
    obtain ⟨hlow, hlowOther⟩ := of_hexValue?_eq_some hsecond
    have hlength := ih hothers
    have hpercent : '%'.utf8Size = 1 := by decide
    rw [List.count_cons_self, List.count_cons_of_ne hhighOther, List.count_cons_of_ne hlowOther,
      String.utf8Len_cons, String.utf8Len_cons, String.utf8Len_cons, hhigh, hlow, hpercent,
      List.length_cons]
    omega
  | case3 text hshort =>
    obtain ⟨high, low, rest, _, _, _, _, hsplit, -⟩ := of_percentDecode?_percent h
    exact absurd hsplit (hshort high low rest)
  | case4 c text hc ih =>
    rw [percentDecode?_cons hc] at h
    obtain ⟨others, hothers, rfl⟩ := Option.map_eq_some_iff.mp h
    have hlength := ih hothers
    have hbytes : (encode c.toString).length = c.utf8Size := by
      rw [length_encode]
      exact String.utf8ByteSize_singleton
    rw [List.count_cons_of_ne hc, String.utf8Len_cons, List.length_append, hbytes]
    omega

/-- A text that stands for the bytes of another is longer by two bytes for every percent sign. -/
theorem utf8Len_of_percentDecode? {meant : String}
    (h : percentDecode? text = some (encode meant)) :
    String.utf8Len meant.toList + 2 * text.count '%' = String.utf8Len text := by
  have hmeant : (encode meant).length = String.utf8Len meant.toList := by
    rw [length_encode, ← String.utf8ByteSize_ofList, String.ofList_toList]
  rw [← hmeant]
  exact length_of_percentDecode? h

/-- Only the empty text counts no bytes. -/
theorem eq_nil_of_utf8Len_eq_zero (h : String.utf8Len text = 0) : text = [] := by
  cases text with
  | nil => rfl
  | cons c text =>
    have hc : 0 < c.utf8Size := c.utf8Size_pos
    rw [String.utf8Len_cons] at h
    omega

/-- A start of a text that counts as many bytes is the whole text. -/
theorem eq_of_prefix_of_utf8Len {whole : List Char} (h : text <+: whole)
    (hlength : String.utf8Len whole ≤ String.utf8Len text) : text = whole := by
  obtain ⟨rest, rfl⟩ := h
  rw [String.utf8Len_append] at hlength
  have hrest : rest = [] := eq_nil_of_utf8Len_eq_zero (by omega)
  rw [hrest, List.append_nil]

end WorkingCopies.Text
