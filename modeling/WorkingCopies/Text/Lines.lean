/-!
# Lines

A line ends at a line feed, and a carriage return right before the line feed belongs to the end.
A last line without a line feed counts when it is not empty.
-/

namespace WorkingCopies.Text

/-- A finished line without the carriage return that belonged to its end. -/
def dropReturn (line : List Char) : List Char :=
  if line.getLast? = some '\r' then line.dropLast else line

/-- The lines of a text that follows `line`, the part of a line already read. -/
def linesFrom (line : List Char) : List Char → List (List Char)
  | [] => if line.isEmpty then [] else [line]
  | c :: text =>
    if c = '\n' then dropReturn line :: linesFrom [] text else linesFrom (line ++ [c]) text

/-- The lines of a text, without their ends. -/
def lines (text : String) : List String := (linesFrom [] text.toList).map String.ofList

end WorkingCopies.Text
