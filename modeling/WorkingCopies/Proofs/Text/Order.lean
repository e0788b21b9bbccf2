import Mathlib.Data.String.Basic
import WorkingCopies.Proofs.Text.ReadBack

/-!
# The order of texts

Texts are ordered by their characters, and characters by their code points. The bytes of texts have
the same order. A character with more bytes has the greater code point and the greater first byte,
and the bytes of characters with equally many are the digits of their code points, the highest one
first.
-/

namespace WorkingCopies.Text

variable {count other point next : Nat} {c d : Char} {first second : List Char}

section Followers

/-- The bytes that follow a first one and carry the last bits of a number, six in each. -/
def followers : Nat → Nat → Bytes
  | 0, _ => []
  | count + 1, point => follower (point / 64 ^ count) :: followers count point

/-- Of two numbers the one that is less in its last bits has the smaller bytes. -/
theorem followers_append_lt (h : point % 64 ^ count < next % 64 ^ count) (more others : Bytes) :
    followers count point ++ more < followers count next ++ others := by
  induction count with
  | zero =>
    rw [pow_zero, Nat.mod_one, Nat.mod_one] at h
    exact absurd h (Nat.lt_irrefl 0)
  | succ count ih =>
    rw [Nat.mod_pow_succ, Nat.mod_pow_succ] at h
    have hpoint : point % 64 ^ count < 64 ^ count := Nat.mod_lt _ (Nat.pow_pos (by decide))
    have hnext : next % 64 ^ count < 64 ^ count := Nat.mod_lt _ (Nat.pow_pos (by decide))
    rw [followers, followers, List.cons_append, List.cons_append, List.cons_lt_cons_iff,
      UInt8.lt_iff_toNat_lt, ← UInt8.toNat_inj, toNat_follower, toNat_follower]
    rcases Nat.lt_trichotomy (point / 64 ^ count % 64) (next / 64 ^ count % 64) with
      hless | hsame | hgreater
    · exact .inl (by omega)
    · rw [hsame] at h
      exact .inr ⟨by omega, ih (by omega)⟩
    · have hscaled : 64 ^ count * (next / 64 ^ count % 64 + 1) ≤
          64 ^ count * (point / 64 ^ count % 64) := Nat.mul_le_mul_left _ hgreater
      rw [Nat.mul_succ] at hscaled
      omega

end Followers

section Lengths

/-- The first code point that takes a number of bytes behind the first one. -/
def firstPoint : Nat → Nat
  | 0 => 0
  | 1 => 0x80
  | 2 => 0x800
  | 3 => 0x10000
  | _ => 0x110000

/-- What a first byte counts beside the bits that it carries. It announces the number of bytes that
follow. -/
def mark : Nat → Nat
  | 0 => 0
  | 1 => 0xC0
  | 2 => 0xE0
  | 3 => 0xF0
  | _ => 0xF8

/-- What takes more bytes comes later. -/
theorem firstPoint_succ_le (h : count < other) (hother : other < 4) :
    firstPoint (count + 1) ≤ firstPoint other := by
  have hall : ∀ other < 4, ∀ count < other, firstPoint (count + 1) ≤ firstPoint other := by decide
  exact hall other hother count h

/-- More bytes are announced by a greater one. -/
theorem mark_succ_le (h : count < other) (hother : other < 4) : mark (count + 1) ≤ mark other := by
  have hall : ∀ other < 4, ∀ count < other, mark (count + 1) ≤ mark other := by decide
  exact hall other hother count h

/-- A character that takes a number of bytes behind its first one. -/
structure Takes (c : Char) (count : Nat) (first : UInt8) : Prop where
  bytes : String.utf8EncodeChar c = first :: followers count c.toNat
  first : first.toNat = c.toNat / 64 ^ count + mark count
  short : count < 4
  from_first : firstPoint count ≤ c.toNat
  to_next : c.toNat < firstPoint (count + 1)

/-- Every character takes up to three bytes behind its first one. -/
theorem exists_takes (c : Char) : ∃ count first, Takes c count first := by
  have hvalid : c.toNat < 0xD800 ∨ 0xDFFF < c.toNat ∧ c.toNat < 0x110000 := c.valid
  have hfirst (bits mark : Nat) (h : bits + mark < 0x100) :
      (UInt8.ofNat (bits + mark)).toNat = bits + mark := by
    rw [UInt8.toNat_ofNat', Nat.mod_eq_of_lt h]
  have hlast : c.toNat / 64 ^ 0 = c.toNat := Nat.div_one _
  by_cases hone : c.toNat ≤ 0x7F
  · have hbytes : String.utf8EncodeChar c = [UInt8.ofNat c.toNat] := if_pos hone
    refine ⟨0, _, hbytes, ?_, by decide, Nat.zero_le _, Nat.lt_succ_of_le hone⟩
    rw [hlast]
    exact hfirst c.toNat 0 (by omega)
  by_cases htwo : c.toNat ≤ 0x7FF
  · have hbytes : String.utf8EncodeChar c = [_, _] := (if_neg hone).trans (if_pos htwo)
    have hbits : c.toNat / 64 % 32 = c.toNat / 64 := by omega
    refine ⟨1, UInt8.ofNat (c.toNat / 64 + 0xC0), ?_, hfirst _ _ (by omega), by decide,
      Nat.lt_of_not_le hone, Nat.lt_succ_of_le htwo⟩
    rw [hbytes, followers, followers, hlast, ← hbits]
    rfl
  by_cases hthree : c.toNat ≤ 0xFFFF
  · have hbytes : String.utf8EncodeChar c = [_, _, _] :=
      (if_neg hone).trans ((if_neg htwo).trans (if_pos hthree))
    have hbits : c.toNat / 4096 % 16 = c.toNat / 4096 := by omega
    refine ⟨2, UInt8.ofNat (c.toNat / 4096 + 0xE0), ?_, hfirst _ _ (by omega), by decide,
      Nat.lt_of_not_le htwo, Nat.lt_succ_of_le hthree⟩
    rw [hbytes, followers, followers, followers, hlast, ← hbits]
    rfl
  · have hbytes : String.utf8EncodeChar c = [_, _, _, _] :=
      (if_neg hone).trans ((if_neg htwo).trans (if_neg hthree))
    have hbits : c.toNat / 262144 % 8 = c.toNat / 262144 := by omega
    refine ⟨3, UInt8.ofNat (c.toNat / 262144 + 0xF0), ?_, hfirst _ _ (by omega), by decide,
      Nat.lt_of_not_le hthree, ?_⟩
    · rw [hbytes, followers, followers, followers, followers, hlast, ← hbits]
      rfl
    · show c.toNat < 0x110000
      omega

namespace Takes

variable {byte : UInt8} {head : UInt8}

/-- The first byte is at least the mark for the bytes behind it. -/
theorem mark_le (h : Takes c count byte) : mark count ≤ byte.toNat := by
  rw [h.first]
  exact Nat.le_add_left _ _

/-- The first byte is less than any mark for more bytes. -/
theorem lt_mark (h : Takes c count byte) : byte.toNat < mark (count + 1) := by
  obtain ⟨-, hfirst, hshort, -, hnext⟩ := h
  rw [hfirst]
  have hcount : count = 0 ∨ count = 1 ∨ count = 2 ∨ count = 3 := by omega
  rcases hcount with rfl | rfl | rfl | rfl <;> simp only [firstPoint, mark] at hnext ⊢ <;> omega

/-- A later character takes as many bytes or more. -/
theorem count_le (h : Takes c count byte) (hd : Takes d other head) (hlt : c.toNat < d.toNat) :
    count ≤ other := by
  by_contra hmore
  have hpoint := firstPoint_succ_le (Nat.lt_of_not_le hmore) h.short
  have hfrom := h.from_first
  have hto := hd.to_next
  omega

end Takes

end Lengths

/-- The bytes of a later character are greater, whatever stands behind them. -/
theorem utf8EncodeChar_append_lt (h : c < d) (more others : Bytes) :
    String.utf8EncodeChar c ++ more < String.utf8EncodeChar d ++ others := by
  have hlt : c.toNat < d.toNat := h
  obtain ⟨count, byte, hc⟩ := exists_takes c
  obtain ⟨other, head, hd⟩ := exists_takes d
  rw [hc.bytes, hd.bytes, List.cons_append, List.cons_append, List.cons_lt_cons_iff,
    UInt8.lt_iff_toNat_lt, ← UInt8.toNat_inj]
  -- more bytes are announced by a greater first byte; with as many, the highest bits come first
  rcases Nat.lt_or_eq_of_le (hc.count_le hd hlt) with hcount | rfl
  · have hmark := mark_succ_le hcount hd.short
    have hbelow := hc.lt_mark
    have habove := hd.mark_le
    exact .inl (by omega)
  · rw [hc.first, hd.first]
    have hquotient : c.toNat / 64 ^ count ≤ d.toNat / 64 ^ count := Nat.div_le_div_right hlt.le
    rcases Nat.lt_or_eq_of_le hquotient with hless | hsame
    · exact .inl (Nat.add_lt_add_right hless _)
    · refine .inr ⟨by rw [hsame], followers_append_lt ?_ more others⟩
      have hwhole := Nat.div_add_mod c.toNat (64 ^ count)
      have hother := Nat.div_add_mod d.toNat (64 ^ count)
      rw [hsame] at hwhole
      omega

/-- An earlier text has the smaller bytes. -/
theorem flatMap_utf8EncodeChar_lt (h : first < second) :
    first.flatMap String.utf8EncodeChar < second.flatMap String.utf8EncodeChar := by
  induction first generalizing second with
  | nil =>
    cases second with
    | nil => exact absurd h (List.lt_irrefl _)
    | cons d second =>
      obtain ⟨count, byte, hd⟩ := exists_takes d
      rw [List.flatMap_cons, hd.bytes]
      exact List.nil_lt_cons _ _
  | cons c first ih =>
    cases second with
    | nil => exact absurd h (List.not_lt_nil _)
    | cons d second =>
      rw [List.flatMap_cons, List.flatMap_cons]
      rcases List.cons_lt_cons_iff.mp h with hless | ⟨rfl, hrest⟩
      · exact utf8EncodeChar_append_lt hless _ _
      · exact List.append_left_lt (ih hrest)

/-- The bytes of an earlier text are smaller. -/
theorem encode_lt_encode_of_lt {text other : String} (h : text < other) :
    encode text < encode other := by
  have hbytes (text : String) : encode text = text.toList.flatMap String.utf8EncodeChar := by
    rw [← encode_ofList, String.ofList_toList]
  rw [hbytes, hbytes]
  exact flatMap_utf8EncodeChar_lt h

/-- The bytes of texts have the order of the texts. -/
theorem encode_le_encode_of_le {text other : String} (h : text ≤ other) :
    encode text ≤ encode other := by
  rcases h.lt_or_eq with hless | rfl
  · exact List.le_of_lt (encode_lt_encode_of_lt hless)
  · exact List.le_refl _

end WorkingCopies.Text
