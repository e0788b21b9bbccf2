/-!
# Text in bytes

Bytes are read as UTF-8. A reader may refuse ill-formed bytes (`decode?`) or put the replacement
character in place of each (`decodeLossy`). An ill-formed part is as long as a first byte and the
bytes behind it still fit some character, and is replaced as one.
-/

namespace WorkingCopies

/-- The contents of a file, or what a command wrote. -/
abbrev Bytes := List UInt8

namespace Text

/-- What a first byte announces: its payload and the range of each byte that has to follow. -/
def announced (b : UInt8) : Option (Nat × List (UInt8 × UInt8)) :=
  if b < 0x80 then some (b.toNat, [])
  else if b < 0xC2 then none
  else if b < 0xE0 then some (b.toNat - 0xC0, [(0x80, 0xBF)])
  else if b = 0xE0 then some (0, [(0xA0, 0xBF), (0x80, 0xBF)])
  else if b = 0xED then some (0xD, [(0x80, 0x9F), (0x80, 0xBF)])
  else if b < 0xF0 then some (b.toNat - 0xE0, [(0x80, 0xBF), (0x80, 0xBF)])
  else if b = 0xF0 then some (0, [(0x90, 0xBF), (0x80, 0xBF), (0x80, 0xBF)])
  else if b < 0xF4 then some (b.toNat - 0xF0, [(0x80, 0xBF), (0x80, 0xBF), (0x80, 0xBF)])
  else if b = 0xF4 then some (4, [(0x80, 0x8F), (0x80, 0xBF), (0x80, 0xBF)])
  else none

/-- Read the bytes that have to follow, and give the code point, if all fit, with the bytes left. -/
def follow (payload : Nat) : List (UInt8 × UInt8) → Bytes → Option Nat × Bytes
  | [], bytes => (some payload, bytes)
  | _ :: _, [] => (none, [])
  | (low, high) :: ranges, b :: bytes =>
    if low ≤ b ∧ b ≤ high then follow (payload * 64 + (b.toNat - 0x80)) ranges bytes
    else (none, b :: bytes)

/-- Reading what follows leaves no more bytes than there were. -/
theorem length_follow_le (payload : Nat) (ranges : List (UInt8 × UInt8)) (bytes : Bytes) :
    (follow payload ranges bytes).2.length ≤ bytes.length := by
  fun_induction follow payload ranges bytes with
  | case1 => simp
  | case2 => simp
  | case3 _ _ _ _ _ _ _ ih => simp; omega
  | case4 => simp

/-- The first character of nonempty bytes, `none` for an ill-formed part, and the bytes behind
it. -/
def firstChar (b : UInt8) (bytes : Bytes) : Option Char × Bytes :=
  match announced b with
  | none => (none, bytes)
  | some (payload, ranges) =>
    let read := follow payload ranges bytes
    (read.1.map Char.ofNat, read.2)

/-- What stands behind the first character is no longer than what stood behind its first byte. -/
theorem length_firstChar_le (b : UInt8) (bytes : Bytes) :
    (firstChar b bytes).2.length ≤ bytes.length := by
  unfold firstChar
  split
  · simp
  · exact length_follow_le ..

/-- The characters of some bytes, with `none` for each ill-formed part. -/
def decodeParts : Bytes → List (Option Char)
  | [] => []
  | b :: bytes => (firstChar b bytes).1 :: decodeParts (firstChar b bytes).2
termination_by bytes => bytes.length
decreasing_by
  have := length_firstChar_le b bytes
  simp
  omega

/-- The text of well-formed bytes. -/
def decode? (bytes : Bytes) : Option String :=
  ((decodeParts bytes).mapM id).map String.ofList

/-- The text of any bytes, with the replacement character for each ill-formed part. -/
def decodeLossy (bytes : Bytes) : String :=
  String.ofList ((decodeParts bytes).map fun c => c.getD '\ufffd')

/-- No bytes give no characters. -/
theorem toList_decodeLossy_nil : (decodeLossy []).toList = [] := by
  simp [decodeLossy, decodeParts]

/-- The bytes of a text. -/
def encode (text : String) : Bytes := text.toUTF8.toList

/-- Listing the bytes of an array from a position on adds one for each. -/
theorem length_toList_loop (bytes : ByteArray) (position : Nat) (listed : Bytes) :
    (ByteArray.toList.loop bytes position listed).length =
      listed.length + (bytes.size - position) := by
  fun_induction ByteArray.toList.loop bytes position listed with
  | case1 position listed hmore ih =>
    rw [ih, List.length_cons]
    omega
  | case2 position listed hend =>
    rw [List.length_reverse]
    omega

/-- A text has as many bytes as it counts. -/
theorem length_encode (text : String) : (encode text).length = text.utf8ByteSize := by
  unfold encode ByteArray.toList
  rw [length_toList_loop]
  simp

/-- Only the empty text has no bytes. -/
theorem encode_eq_nil_iff {text : String} : encode text = [] ↔ text = "" := by
  rw [← List.length_eq_zero_iff, length_encode, String.utf8ByteSize_eq_zero_iff]

end Text

end WorkingCopies
