import WorkingCopies.Proofs.Text.ReadBack
import WorkingCopies.Text.Lines

/-!
# Printed lines

A program prints names line by line. A line ends with a line feed, or with a carriage return and a
line feed, and the last line may have no end. Where the lines have no white space of their own, the
text is read back without white space at its ends, line by line, as the lines that are not empty.
No name is lost then, and none depends on the ends of the lines or on empty lines between them.
-/

namespace WorkingCopies.Text

variable {α : Type} {line text : List Char}

/-- The end of a line. -/
inductive LineEnd where
  | feed
  | returnFeed
  deriving DecidableEq

namespace LineEnd

/-- The characters of an end. -/
def chars : LineEnd → List Char
  | feed => ['\n']
  | returnFeed => ['\r', '\n']

/-- The bytes of an end. -/
def bytes : LineEnd → Bytes
  | feed => [0x0A]
  | returnFeed => [0x0D, 0x0A]

/-- An end is white space. -/
theorem isBlank_of_mem_chars {lineEnd : LineEnd} : ∀ c ∈ lineEnd.chars, isBlank c = true := by
  cases lineEnd with
  | feed => simpa [chars] using (by decide : isBlank '\n' = true)
  | returnFeed => simpa [chars] using (by decide : isBlank '\r' = true ∧ isBlank '\n' = true)

end LineEnd

/-- Lines with their ends, and a last one without an end. -/
structure Listing (α : Type) where
  lines : List (List α × LineEnd)
  last : List α := []

namespace Listing

/-- All lines without their ends. -/
def contents (listing : Listing α) : List (List α) :=
  listing.lines.map Prod.fst ++ [listing.last]

/-- The lines with their ends in a row. -/
def layOut (ends : LineEnd → List α) (listing : Listing α) : List α :=
  listing.lines.flatMap (fun line => line.1 ++ ends line.2) ++ listing.last

/-- The lines that are not empty. -/
def filled (listing : Listing α) : List (List α) :=
  listing.contents.filter fun line => !line.isEmpty

/-- What is printed. -/
def bytes (listing : Listing UInt8) : Bytes := listing.layOut LineEnd.bytes

/-- The lines of bytes as lines of characters. -/
def read (listing : Listing UInt8) : Listing Char where
  lines := listing.lines.map fun line => ((decodeLossy line.1).toList, line.2)
  last := (decodeLossy listing.last).toList

/-- The names that are listed: the lines that are not empty, as texts. -/
def names (listing : Listing UInt8) : List String := listing.read.filled.map String.ofList

/-- Whether no line has white space of its own. -/
def IsPlain (listing : Listing Char) : Prop :=
  ∀ line ∈ listing.contents, ∀ c ∈ line, isBlank c = false

/-- Whether lines have white space can be found out. -/
instance (listing : Listing Char) : Decidable listing.IsPlain :=
  decidable_of_iff (listing.contents.all fun line => line.all fun c => !isBlank c)
    (by simp [IsPlain])

end Listing

section Decoding

/-- The characters of some bytes end in front of the end of a line, and go on behind it. -/
theorem toList_decodeLossy_append_lineEnd (bytes : Bytes) (lineEnd : LineEnd) (more : Bytes) :
    (decodeLossy (bytes ++ (lineEnd.bytes ++ more))).toList =
      (decodeLossy bytes).toList ++ (lineEnd.chars ++ (decodeLossy more).toList) := by
  have hfeed (more : Bytes) : decodeParts (0x0A :: more) = some '\n' :: decodeParts more :=
    decodeParts_encodeChar '\n' more
  have hreturn (more : Bytes) : decodeParts (0x0D :: more) = some '\r' :: decodeParts more :=
    decodeParts_encodeChar '\r' more
  simp only [decodeLossy, String.toList_ofList]
  cases lineEnd with
  | feed =>
    show (decodeParts (bytes ++ 0x0A :: more)).map _ = _
    rw [decodeParts_append_of_lt bytes (by decide), hfeed]
    simp [LineEnd.chars]
  | returnFeed =>
    show (decodeParts (bytes ++ 0x0D :: 0x0A :: more)).map _ = _
    rw [decodeParts_append_of_lt bytes (by decide), hreturn, hfeed]
    simp [LineEnd.chars]

/-- What is printed is read line by line. -/
theorem Listing.toList_decodeLossy_bytes (listing : Listing UInt8) :
    (decodeLossy listing.bytes).toList = listing.read.layOut LineEnd.chars := by
  obtain ⟨lines, last⟩ := listing
  induction lines with
  | nil => rfl
  | cons line lines ih =>
    have hsplit : bytes ⟨line :: lines, last⟩ =
        line.1 ++ (line.2.bytes ++ bytes ⟨lines, last⟩) := by
      simp [bytes, layOut]
    rw [hsplit, toList_decodeLossy_append_lineEnd, ih]
    simp [layOut, read]

end Decoding

section Lines

/-- Characters that end no line belong to the line that is being read. -/
theorem linesFrom_append_of_not_mem (h : '\n' ∉ text) (line rest : List Char) :
    linesFrom line (text ++ rest) = linesFrom (line ++ text) rest := by
  induction text generalizing line with
  | nil => rw [List.nil_append, List.append_nil]
  | cons c text ih =>
    rw [List.mem_cons, not_or] at h
    rw [List.cons_append, linesFrom, if_neg (Ne.symm h.1), ih h.2, List.append_assoc,
      List.singleton_append]

/-- A text without white space has no character of an end of a line. -/
theorem not_mem_of_plain {c : Char} (h : ∀ c ∈ line, isBlank c = false) (hc : isBlank c = true) :
    c ∉ line := by
  intro hmem
  rw [h c hmem] at hc
  cases hc

/-- A line without white space is read up to its end. -/
theorem linesFrom_append_lineEnd (h : ∀ c ∈ line, isBlank c = false) (lineEnd : LineEnd)
    (rest : List Char) :
    linesFrom [] (line ++ (lineEnd.chars ++ rest)) = line :: linesFrom [] rest := by
  have hfeed : '\n' ∉ line := not_mem_of_plain h (by decide)
  rw [linesFrom_append_of_not_mem hfeed, List.nil_append]
  cases lineEnd with
  | feed =>
    have hkept : line.getLast? ≠ some '\r' := fun hlast =>
      not_mem_of_plain h (by decide) (List.mem_of_getLast? hlast)
    show linesFrom line ('\n' :: rest) = _
    rw [linesFrom, if_pos rfl, dropReturn, if_neg hkept]
  | returnFeed =>
    show linesFrom line ('\r' :: '\n' :: rest) = _
    rw [linesFrom, if_neg (by decide), linesFrom, if_pos rfl, dropReturn, if_pos (by simp),
      List.dropLast_concat]

/-- Plain lines are read one by one, the last one only where it is not empty. -/
theorem Listing.filter_linesFrom_layOut {listing : Listing Char} (h : listing.IsPlain) :
    (linesFrom [] (listing.layOut LineEnd.chars)).filter (fun line => !line.isEmpty) =
      listing.filled := by
  obtain ⟨lines, last⟩ := listing
  induction lines with
  | nil =>
    have hlast : ∀ c ∈ last, isBlank c = false := h last (by simp [contents])
    have hread := linesFrom_append_of_not_mem (not_mem_of_plain hlast (by decide)) [] []
    rw [List.append_nil, List.nil_append] at hread
    show (linesFrom [] last).filter _ = _
    rw [hread, linesFrom]
    cases last <;> rfl
  | cons line lines ih =>
    have hline : ∀ c ∈ line.1, isBlank c = false := h line.1 (by simp [contents])
    have hrest : IsPlain ⟨lines, last⟩ := fun other hother =>
      h other (List.mem_cons_of_mem _ hother)
    have hsplit : layOut LineEnd.chars ⟨line :: lines, last⟩ =
        line.1 ++ (line.2.chars ++ layOut LineEnd.chars ⟨lines, last⟩) := by
      simp [layOut]
    rw [hsplit, linesFrom_append_lineEnd hline, List.filter_cons, ih hrest]
    simp [filled, contents, List.filter_cons]

end Lines

section Trimming

namespace Listing

variable {listing : Listing Char}

/-- The same names, laid out plainly. -/
structure Lists (listing : Listing Char) (text : List Char) (names : List (List Char)) : Prop where
  plain : listing.IsPlain
  text : listing.layOut LineEnd.chars = text
  names : listing.filled = names

/-- Taking the white space in front of a plain listing away leaves a plain listing of the same
names. -/
theorem exists_lists_dropWhile (h : listing.IsPlain) :
    ∃ left : Listing Char,
      left.Lists ((listing.layOut LineEnd.chars).dropWhile isBlank) listing.filled := by
  obtain ⟨lines, last⟩ := listing
  induction lines with
  | nil =>
    have hlast : ∀ c ∈ last, isBlank c = false := h last (by simp [contents])
    refine ⟨⟨[], last⟩, h, ?_, rfl⟩
    show last = last.dropWhile isBlank
    cases last with
    | nil => rfl
    | cons c last => rw [List.dropWhile_cons_of_neg (by simp [hlast])]
  | cons line lines ih =>
    obtain ⟨line, lineEnd⟩ := line
    cases line with
    | nil =>
      -- An empty line goes away with its end, and the search goes on behind it.
      have hrest : IsPlain ⟨lines, last⟩ := fun other hother =>
        h other (List.mem_cons_of_mem _ hother)
      obtain ⟨left, hplain, htext, hnames⟩ := ih hrest
      have hsplit : layOut LineEnd.chars ⟨([], lineEnd) :: lines, last⟩ =
          lineEnd.chars ++ layOut LineEnd.chars ⟨lines, last⟩ := by
        simp [layOut]
      refine ⟨left, hplain, ?_, hnames⟩
      rw [htext, hsplit, List.dropWhile_append_of_pos LineEnd.isBlank_of_mem_chars]
    | cons c line =>
      have hc : isBlank c = false := h (c :: line) (by simp [contents]) c List.mem_cons_self
      refine ⟨_, h, ?_, rfl⟩
      show c :: _ = List.dropWhile isBlank (c :: _)
      rw [List.dropWhile_cons_of_neg (by simp [hc])]

/-- White space behind a text goes away, however much it is. -/
theorem rdropWhile_append_of_pos {blanks : List Char} (h : ∀ c ∈ blanks, isBlank c = true)
    (text : List Char) : (text ++ blanks).rdropWhile isBlank = text.rdropWhile isBlank := by
  rw [List.rdropWhile, List.reverse_append, List.dropWhile_append_of_pos]
  · rfl
  · intro c hc
    exact h c (List.mem_reverse.mp hc)

/-- A plain listing without an end behind its last line ends in a character that stays. -/
theorem rdropWhile_layOut (h : listing.IsPlain) (hlast : listing.last ≠ []) :
    (listing.layOut LineEnd.chars).rdropWhile isBlank = listing.layOut LineEnd.chars := by
  refine List.rdropWhile_eq_self_iff.mpr fun hne => ?_
  have hend : (listing.layOut LineEnd.chars).getLast hne = listing.last.getLast hlast :=
    List.getLast_append_of_ne_nil _ hlast
  have hplain : ∀ c ∈ listing.last, isBlank c = false := h listing.last (by simp [contents])
  rw [hend, hplain _ (List.getLast_mem hlast)]
  exact Bool.false_ne_true

/-- Taking the white space behind a plain listing away leaves a plain listing of the same names. -/
theorem exists_lists_rdropWhile (h : listing.IsPlain) :
    ∃ left : Listing Char,
      left.Lists ((listing.layOut LineEnd.chars).rdropWhile isBlank) listing.filled := by
  obtain ⟨lines, last⟩ := listing
  induction lines using List.reverseRecOn generalizing last with
  | nil =>
    by_cases hlast : last = []
    · subst hlast
      exact ⟨_, h, rfl, rfl⟩
    · exact ⟨_, h, (rdropWhile_layOut h hlast).symm, rfl⟩
  | append_singleton lines line ih =>
    by_cases hlast : last = []
    · -- The end of the last line goes away, and the search goes on in front of it.
      subst hlast
      have hrest : IsPlain ⟨lines, line.1⟩ := fun other hother => h other (by
        simp only [contents, List.map_append, List.map_cons, List.map_nil]
        exact List.mem_append_left _ hother)
      obtain ⟨left, hplain, htext, hnames⟩ := ih line.1 hrest
      have hsplit : layOut LineEnd.chars ⟨lines ++ [line], []⟩ =
          layOut LineEnd.chars ⟨lines, line.1⟩ ++ line.2.chars := by
        simp [layOut]
      have hsame : filled ⟨lines ++ [line], []⟩ = filled ⟨lines, line.1⟩ := by
        simp [filled, contents, List.filter_cons]
      rw [hsplit, rdropWhile_append_of_pos LineEnd.isBlank_of_mem_chars, hsame]
      exact ⟨left, hplain, htext, hnames⟩
    · exact ⟨_, h, (rdropWhile_layOut h hlast).symm, rfl⟩

/-- The lines of a plain listing, trimmed, are its names. -/
theorem filter_linesFrom_trimChars (h : listing.IsPlain) :
    (linesFrom [] (trimChars (listing.layOut LineEnd.chars))).filter (fun line => !line.isEmpty) =
      listing.filled := by
  obtain ⟨behind, hbehind, htext, hnames⟩ := exists_lists_dropWhile h
  obtain ⟨left, hleft, htrimmed, hsame⟩ := exists_lists_rdropWhile hbehind
  have htrim : trimChars (listing.layOut LineEnd.chars) = left.layOut LineEnd.chars := by
    rw [htrimmed, htext]
    rfl
  rw [htrim, filter_linesFrom_layOut hleft, hsame, hnames]

end Listing

end Trimming

/-- Names without white space are read back from what was printed, whatever the ends of the lines
and whatever empty lines stand between them. -/
theorem Listing.filter_lines_trim_bytes {listing : Listing UInt8} (h : listing.read.IsPlain) :
    (Text.lines (trim (decodeLossy listing.bytes))).filter (fun line => !line.isEmpty) =
      listing.names := by
  have hread := filter_linesFrom_trimChars h
  have hempty : (fun line : List Char => !(String.ofList line).isEmpty) =
      fun line => !line.isEmpty := by
    funext line
    cases line <;> simp [String.isEmpty_iff, Bool.eq_false_iff]
  rw [Text.lines, trim, toList_decodeLossy_bytes, String.toList_ofList, List.filter_map,
    Function.comp_def, hempty, hread, names]

end WorkingCopies.Text
