import WorkingCopies.Yaml.Cursor

/-!
# Gaps in scalars

Inside a scalar, blanks within a line are kept, and those around the end of a line are not. A
single end of a line becomes one blank; of several, all but the first are kept.
-/

namespace WorkingCopies.Yaml

/-- What stands between two words of a scalar. -/
structure Gap where
  /-- Blanks and tabs before the first end of a line. -/
  spaces : List Char := []
  /-- Whether the words are on different lines. -/
  crossesLine : Bool := false
  firstBreak : List Char := []
  furtherBreaks : List Char := []

namespace Gap

/-- What a gap stands for. -/
def text (gap : Gap) : List Char :=
  if gap.crossesLine then
    if gap.firstBreak == ['\n'] then
      if gap.furtherBreaks.isEmpty then [' '] else gap.furtherBreaks
    else gap.firstBreak ++ gap.furtherBreaks
  else gap.spaces

/-- Lengthen a gap by a blank or a tab. -/
def addSpace (gap : Gap) (c : Char) : Gap :=
  if gap.crossesLine then gap else { gap with spaces := gap.spaces ++ [c] }

/-- Lengthen a gap by the end of a line. -/
def addBreak (gap : Gap) (lineBreak : List Char) : Gap :=
  if gap.crossesLine then { gap with furtherBreaks := gap.furtherBreaks ++ lineBreak }
  else { crossesLine := true, firstBreak := lineBreak }

/-- Read a gap to its end. In the columns before `indent` of a new line, tabs are refused. -/
def read (indent : Int) (gap : Gap) (cursor : Cursor) : Except Error (Gap × Cursor) :=
  match _h : cursor.rest with
  | [] => .ok (gap, cursor)
  | c :: _ =>
    if c == '\t' && gap.crossesLine && cursor.place.column < indent then
      cursor.fail "found a tab character that violates indentation"
    else if isSpace c then read indent (gap.addSpace c) (cursor.skip 1)
    else if _hb : isBreak c then read indent (gap.addBreak cursor.readBreak.1) cursor.skipLine
    else .ok (gap, cursor)
termination_by cursor.rest.length
decreasing_by
  · simp [Cursor.skip, _h]
  · exact Cursor.length_skipLine_lt _h _hb

end Gap

end WorkingCopies.Yaml
