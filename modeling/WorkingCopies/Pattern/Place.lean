/-!
# Places in a pattern

A place is given by its line and its column, both counted from one. A span goes from one place to
another.
-/

namespace WorkingCopies.Pattern

/-- A place in a pattern. -/
structure Place where
  line : Nat := 1
  column : Nat := 1
  deriving Repr, DecidableEq, Inhabited

/-- The place behind a character that stands at a place. -/
def Place.behind (place : Place) (c : Char) : Place :=
  if c == '\n' then { line := place.line + 1, column := 1 }
  else { place with column := place.column + 1 }

/-- A part of a pattern, without the character at its end. -/
structure Span where
  start : Place
  stop : Place
  deriving Repr, DecidableEq, Inhabited

namespace Span

/-- The empty span at a place. -/
def emptyAt (place : Place) : Span := ⟨place, place⟩

/-- Whether a span begins and ends on one line. -/
def isInLine (span : Span) : Bool := span.start.line == span.stop.line

end Span

end WorkingCopies.Pattern
