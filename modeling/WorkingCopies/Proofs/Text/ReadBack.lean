import Mathlib.Data.List.DropRight
import WorkingCopies.Proofs.Text.Percent
import WorkingCopies.Text.Blank

/-!
# Texts that are read back

A text is read back from its own bytes, character by character: the first byte of a character says
how many bytes follow, and each of these carries six more bits of the code point. A newline behind
any bytes is read as a newline behind their text, since no ill-formed part swallows it, and trimming
takes it away again.
-/

namespace WorkingCopies.Text

variable {payload point : Nat} {low high b : UInt8} {ranges : List (UInt8 × UInt8)} {bytes : Bytes}
  {c : Char} {text : List Char}

section FirstBytes

/-- A character of one byte is that byte. -/
theorem announced_one (h : b.toNat < 0x80) : announced b = some (b.toNat, []) :=
  if_pos (UInt8.lt_iff_toNat_lt.mpr h)

/-- The first byte of a character of two bytes. -/
theorem announced_two (hlow : 0xC2 ≤ b.toNat) (hhigh : b.toNat < 0xE0) :
    announced b = some (b.toNat - 0xC0, [(0x80, 0xBF)]) := by
  unfold announced
  simp only [UInt8.lt_iff_toNat_lt, UInt8.reduceToNat]
  rw [if_neg (by omega), if_neg (by omega), if_pos hhigh]

/-- The first byte of a character of three bytes. The second byte keeps clear of shorter forms and
of surrogates. -/
theorem announced_three (hlow : 0xE0 ≤ b.toNat) (hhigh : b.toNat < 0xF0) :
    announced b = some (b.toNat - 0xE0, [(if b.toNat = 0xE0 then 0xA0 else 0x80,
      if b.toNat = 0xED then 0x9F else 0xBF), (0x80, 0xBF)]) := by
  unfold announced
  simp only [UInt8.lt_iff_toNat_lt, ← UInt8.toNat_inj, UInt8.reduceToNat]
  rw [if_neg (by omega), if_neg (by omega), if_neg (by omega), if_pos hhigh]
  split_ifs <;> first | omega | simp_all

/-- The first byte of a character of four bytes. The second byte keeps clear of shorter forms and of
what is no code point any more. -/
theorem announced_four (hlow : 0xF0 ≤ b.toNat) (hhigh : b.toNat < 0xF5) :
    announced b = some (b.toNat - 0xF0, [(if b.toNat = 0xF0 then 0x90 else 0x80,
      if b.toNat = 0xF4 then 0x8F else 0xBF), (0x80, 0xBF), (0x80, 0xBF)]) := by
  unfold announced
  simp only [UInt8.lt_iff_toNat_lt, ← UInt8.toNat_inj, UInt8.reduceToNat]
  rw [if_neg (by omega), if_neg (by omega), if_neg (by omega), if_neg (by omega),
    if_neg (by omega), if_neg (by omega)]
  split_ifs <;> first | omega | simp_all

/-- No byte that follows a first one is a character of its own. -/
theorem le_of_announced (h : announced b = some (payload, ranges)) :
    ∀ range ∈ ranges, 0x80 ≤ range.1 := by
  unfold announced at h
  split_ifs at h <;> simp only [Option.some.injEq, Prod.mk.injEq] at h <;>
    (obtain ⟨-, rfl⟩ := h; simp)

end FirstBytes

section Followers

/-- A byte that follows a first one and carries the last six bits of a number. -/
def follower (point : Nat) : UInt8 := UInt8.ofNat (point % 0x40 + 0x80)

/-- What such a byte counts. -/
theorem toNat_follower : (follower point).toNat = point % 0x40 + 0x80 := by
  unfold follower
  rw [UInt8.toNat_ofNat']
  omega

/-- A byte that follows and fits adds its six bits to the payload. -/
theorem follow_follower (hlow : low.toNat ≤ point % 0x40 + 0x80)
    (hhigh : point % 0x40 + 0x80 ≤ high.toNat) :
    follow payload ((low, high) :: ranges) (follower point :: bytes) =
      follow (payload * 64 + point % 0x40) ranges bytes := by
  have hfits : low ≤ follower point ∧ follower point ≤ high := by
    rw [UInt8.le_iff_toNat_le, UInt8.le_iff_toNat_le, toNat_follower]
    exact ⟨hlow, hhigh⟩
  rw [follow, if_pos hfits, toNat_follower, Nat.add_sub_cancel]

/-- Where every byte that may follow fits, it adds its six bits. -/
theorem follow_any :
    follow payload ((0x80, 0xBF) :: ranges) (follower point :: bytes) =
      follow (payload * 64 + point % 0x40) ranges bytes := by
  have hlow : (0x80 : UInt8).toNat ≤ point % 0x40 + 0x80 := Nat.le_add_left _ _
  have hhigh : point % 0x40 + 0x80 ≤ (0xBF : UInt8).toNat := by
    show _ ≤ 0xBF
    omega
  exact follow_follower hlow hhigh

/-- Where nothing has to follow, the payload is the code point. -/
theorem map_follow_nil (c : Char) :
    ((follow c.toNat [] bytes).1.map Char.ofNat, (follow c.toNat [] bytes).2) =
      (some c, bytes) := by
  simp [follow]

end Followers

section Characters

/-- A character of one byte is read back. -/
theorem firstChar_one (hc : c.toNat ≤ 0x7F) :
    firstChar (UInt8.ofNat c.toNat) bytes = (some c, bytes) := by
  have hbyte : (UInt8.ofNat c.toNat).toNat = c.toNat := by
    rw [UInt8.toNat_ofNat']
    omega
  unfold firstChar
  rw [announced_one (by omega), hbyte]
  exact map_follow_nil c

/-- A character of two bytes is read back. -/
theorem firstChar_two (hlow : 0x7F < c.toNat) (hhigh : c.toNat ≤ 0x7FF) :
    firstChar (UInt8.ofNat (c.toNat / 64 % 0x20 + 0xC0)) (follower c.toNat :: bytes) =
      (some c, bytes) := by
  have hbyte : (UInt8.ofNat (c.toNat / 64 % 0x20 + 0xC0)).toNat = c.toNat / 64 + 0xC0 := by
    rw [UInt8.toNat_ofNat']
    omega
  have hpoint : c.toNat / 64 * 64 + c.toNat % 0x40 = c.toNat := by omega
  unfold firstChar
  rw [announced_two (by omega) (by omega), hbyte, Nat.add_sub_cancel]
  dsimp only
  rw [follow_any, hpoint]
  exact map_follow_nil c

/-- A character of three bytes is read back. -/
theorem firstChar_three (hlow : 0x7FF < c.toNat) (hhigh : c.toNat ≤ 0xFFFF) :
    firstChar (UInt8.ofNat (c.toNat / 4096 % 0x10 + 0xE0))
      (follower (c.toNat / 64) :: follower c.toNat :: bytes) = (some c, bytes) := by
  have hvalid : c.toNat < 0xD800 ∨ 0xDFFF < c.toNat ∧ c.toNat < 0x110000 := c.valid
  have hbyte : (UInt8.ofNat (c.toNat / 4096 % 0x10 + 0xE0)).toNat = c.toNat / 4096 + 0xE0 := by
    rw [UInt8.toNat_ofNat']
    omega
  have hpoint : (c.toNat / 4096 * 64 + c.toNat / 64 % 0x40) * 64 + c.toNat % 0x40 = c.toNat := by
    omega
  have hsecond : (if c.toNat / 4096 + 0xE0 = 0xE0 then 0xA0 else 0x80 : UInt8).toNat ≤
      c.toNat / 64 % 0x40 + 0x80 := by
    split
    · show 0xA0 ≤ _
      omega
    · exact Nat.le_add_left _ _
  have hlast : c.toNat / 64 % 0x40 + 0x80 ≤
      (if c.toNat / 4096 + 0xE0 = 0xED then 0x9F else 0xBF : UInt8).toNat := by
    split
    · show _ ≤ 0x9F
      omega
    · show _ ≤ 0xBF
      omega
  unfold firstChar
  rw [announced_three (by omega) (by omega), hbyte, Nat.add_sub_cancel]
  dsimp only
  rw [follow_follower hsecond hlast, follow_any, hpoint]
  exact map_follow_nil c

/-- A character of four bytes is read back. -/
theorem firstChar_four (hlow : 0xFFFF < c.toNat) :
    firstChar (UInt8.ofNat (c.toNat / 262144 % 0x08 + 0xF0))
      (follower (c.toNat / 4096) :: follower (c.toNat / 64) :: follower c.toNat :: bytes) =
      (some c, bytes) := by
  have hvalid : c.toNat < 0xD800 ∨ 0xDFFF < c.toNat ∧ c.toNat < 0x110000 := c.valid
  have hbyte : (UInt8.ofNat (c.toNat / 262144 % 0x08 + 0xF0)).toNat = c.toNat / 262144 + 0xF0 := by
    rw [UInt8.toNat_ofNat']
    omega
  have hpoint : ((c.toNat / 262144 * 64 + c.toNat / 4096 % 0x40) * 64 + c.toNat / 64 % 0x40) * 64 +
      c.toNat % 0x40 = c.toNat := by
    omega
  have hsecond : (if c.toNat / 262144 + 0xF0 = 0xF0 then 0x90 else 0x80 : UInt8).toNat ≤
      c.toNat / 4096 % 0x40 + 0x80 := by
    split
    · show 0x90 ≤ _
      omega
    · exact Nat.le_add_left _ _
  have hlast : c.toNat / 4096 % 0x40 + 0x80 ≤
      (if c.toNat / 262144 + 0xF0 = 0xF4 then 0x8F else 0xBF : UInt8).toNat := by
    split
    · show _ ≤ 0x8F
      omega
    · show _ ≤ 0xBF
      omega
  unfold firstChar
  rw [announced_four (by omega) (by omega), hbyte, Nat.add_sub_cancel]
  dsimp only
  rw [follow_follower hsecond hlast, follow_any, follow_any, hpoint]
  exact map_follow_nil c

/-- A character is read back from its bytes, and what stands behind them comes next. -/
theorem decodeParts_encodeChar (c : Char) (bytes : Bytes) :
    decodeParts (String.utf8EncodeChar c ++ bytes) = some c :: decodeParts bytes := by
  have hcons {b : UInt8} {others : Bytes} (h : firstChar b (others ++ bytes) = (some c, bytes)) :
      decodeParts (b :: others ++ bytes) = some c :: decodeParts bytes := by
    rw [List.cons_append, decodeParts, h]
  by_cases hone : c.toNat ≤ 0x7F
  · have hbytes : String.utf8EncodeChar c = [UInt8.ofNat c.toNat] := if_pos hone
    rw [hbytes]
    exact hcons (firstChar_one hone)
  by_cases htwo : c.toNat ≤ 0x7FF
  · have hbytes : String.utf8EncodeChar c = [_, _] := (if_neg hone).trans (if_pos htwo)
    rw [hbytes]
    exact hcons (firstChar_two (by omega) htwo)
  by_cases hthree : c.toNat ≤ 0xFFFF
  · have hbytes : String.utf8EncodeChar c = [_, _, _] :=
      (if_neg hone).trans ((if_neg htwo).trans (if_pos hthree))
    rw [hbytes]
    exact hcons (firstChar_three (by omega) hthree)
  · have hbytes : String.utf8EncodeChar c = [_, _, _, _] :=
      (if_neg hone).trans ((if_neg htwo).trans (if_neg hthree))
    rw [hbytes]
    exact hcons (firstChar_four (by omega))

end Characters

/-- The bytes of a text are those of its characters in a row. -/
theorem encode_ofList (text : List Char) :
    encode (String.ofList text) = text.flatMap String.utf8EncodeChar := by
  show ByteArray.toList.loop _ 0 [] = _
  rw [toList_loop_eq]
  simp [List.utf8Encode]

/-- The characters of a text are read back from its bytes. -/
theorem decodeParts_encode (text : List Char) :
    decodeParts (encode (String.ofList text)) = text.map some := by
  rw [encode_ofList]
  induction text with
  | nil => simp [decodeParts]
  | cons c text ih => rw [List.flatMap_cons, decodeParts_encodeChar, ih, List.map_cons]

/-- A text is read back from its bytes. -/
@[simp] theorem decodeLossy_encode (text : String) : decodeLossy (encode text) = text := by
  have htext : encode text = encode (String.ofList text.toList) := by rw [String.ofList_toList]
  unfold decodeLossy
  rw [htext, decodeParts_encode, List.map_map]
  simp [Function.comp_def]

section Newline

/-- What has to follow a first byte is not found in a byte that is a character of its own. -/
theorem follow_append_of_lt (hranges : ∀ range ∈ ranges, (0x80 : UInt8) ≤ range.1) (hb : b < 0x80)
    (rest : Bytes) :
    follow payload ranges (bytes ++ b :: rest) =
      ((follow payload ranges bytes).1, (follow payload ranges bytes).2 ++ b :: rest) := by
  fun_induction follow payload ranges bytes with
  | case1 => simp [follow]
  | case2 payload range ranges =>
    have hlow : (0x80 : UInt8) ≤ range.1 := hranges range List.mem_cons_self
    have hunder : ¬ (range.1 ≤ b ∧ b ≤ range.2) := by
      intro hfits
      exact absurd (UInt8.le_trans hlow hfits.1) (UInt8.not_le.mpr hb)
    rw [List.nil_append, follow, if_neg hunder]
  | case3 payload low high ranges byte bytes hfits ih =>
    rw [List.cons_append, follow, if_pos hfits]
    exact ih fun range hrange => hranges range (List.mem_cons_of_mem _ hrange)
  | case4 payload low high ranges byte bytes hfits =>
    rw [List.cons_append, follow, if_neg hfits]

/-- The characters of some bytes end in front of a byte that is a character of its own. -/
theorem decodeParts_append_of_lt (bytes : Bytes) (hb : b < 0x80) (rest : Bytes) :
    decodeParts (bytes ++ b :: rest) = decodeParts bytes ++ decodeParts (b :: rest) := by
  induction bytes using decodeParts.induct with
  | case1 => rw [List.nil_append, decodeParts.eq_1, List.nil_append]
  | case2 byte bytes ih =>
    have hfirst : firstChar byte (bytes ++ b :: rest) =
        ((firstChar byte bytes).1, (firstChar byte bytes).2 ++ b :: rest) := by
      unfold firstChar
      cases hannounced : announced byte with
      | none => rfl
      | some announcement =>
        dsimp only
        rw [follow_append_of_lt (le_of_announced hannounced) hb]
    rw [List.cons_append, decodeParts, hfirst, ih, decodeParts.eq_2 byte bytes, List.cons_append]

/-- The bytes of a newline. -/
def newline : Bytes := [0x0A]

/-- A newline behind any bytes is read as one behind their characters. -/
theorem decodeParts_append_newline (bytes : Bytes) :
    decodeParts (bytes ++ newline) = decodeParts bytes ++ [some '\n'] := by
  have hnewline : [(0x0A : UInt8)] = String.utf8EncodeChar '\n' ++ [] := by decide
  rw [newline, decodeParts_append_of_lt bytes (by decide), hnewline, decodeParts_encodeChar,
    decodeParts.eq_1]

end Newline

section Trim

/-- A blank behind a text is trimmed away. -/
theorem trimChars_append_blank (hc : isBlank c = true) (text : List Char) :
    trimChars (text ++ [c]) = trimChars text := by
  unfold trimChars
  rw [List.dropWhile_append]
  split
  · next hempty =>
    rw [List.isEmpty_iff.mp hempty, List.dropWhile_cons_of_pos hc]
    rfl
  · rw [List.reverse_append, List.reverse_singleton, List.singleton_append,
      List.dropWhile_cons_of_pos hc]

/-- Trimming twice is trimming once. -/
theorem trimChars_trimChars (text : List Char) : trimChars (trimChars text) = trimChars text := by
  have hprefix : trimChars text <+: text.dropWhile isBlank := by
    rw [← List.reverse_suffix]
    simpa [trimChars] using List.dropWhile_suffix isBlank
  have hstart : (trimChars text).dropWhile isBlank = trimChars text := by
    cases htrimmed : trimChars text with
    | nil => rfl
    | cons c rest =>
      obtain ⟨behind, hbehind⟩ := hprefix
      rw [htrimmed, List.cons_append] at hbehind
      have hhead : isBlank c = false := by
        simpa [← hbehind] using List.head?_dropWhile_not isBlank text
      rw [List.dropWhile_cons_of_neg (by simp [hhead])]
  conv_lhs => rw [trimChars, hstart]
  conv_rhs => rw [trimChars]
  rw [trimChars, List.reverse_reverse, List.dropWhile_idempotent]

/-- Trimming twice is trimming once. -/
@[simp] theorem trim_trim (text : String) : trim (trim text) = trim text := by
  simp [trim, trimChars_trimChars]

/-- A newline behind any bytes has no part in their text without white space at its ends. -/
theorem trim_decodeLossy_newline (bytes : Bytes) :
    trim (decodeLossy (bytes ++ newline)) = trim (decodeLossy bytes) := by
  unfold trim decodeLossy
  rw [decodeParts_append_newline, List.map_append]
  simp [trimChars_append_blank (show isBlank '\n' = true by decide)]

end Trim

end WorkingCopies.Text
