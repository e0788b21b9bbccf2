import WorkingCopies.Colour
import WorkingCopies.Log
import WorkingCopies.Text.ControlSequence
import WorkingCopies.Text.Replace

/-!
# Lines of the log

An entry is printed behind its level, which is padded to five characters and stands in brackets.
Further lines of its text are indented by four blanks. With colours, the brackets are grey and each
level has a colour of its own; without, the line has no control sequences at all.
-/

namespace WorkingCopies.Log

/-- The switch to a way of display. -/
def switch (code : Nat) : String := "\x1b[" ++ toString code ++ "m"

/-- A text between switches to ways of display and the switch back. -/
def styled (codes : List Nat) (text : String) : String :=
  String.join (codes.map switch) ++ text ++ switch 0

/-- The codes for grey. -/
def grey : List Nat := [90]

/-- The codes for the display of a level. Errors are bold as well as red. -/
def Level.codes : Level → List Nat
  | error => [1, 31]
  | warning => [33]
  | info => [32]
  | debug => [34]
  | trace => [36]

/-- The name of a level with blanks behind it to five characters. -/
def Level.paddedName (level : Level) : String :=
  level.name ++ String.ofList (List.replicate (5 - level.name.length) ' ')

/-- The line of an entry behind its level. -/
def Entry.lineBehind (entry : Entry) (head : String) : String :=
  head ++ " " ++ Text.replace "\n" "\n    " entry.text ++ "\n"

/-- The line of an entry. Where control sequences go, one that the entry does not end takes the end
of the line with it. -/
def Entry.line (colour : Colour) (entry : Entry) : String :=
  if colour.isOn then
    entry.lineBehind
      (styled grey "[" ++ styled entry.level.codes entry.level.paddedName ++ styled grey "]")
  else Text.withoutControls (entry.lineBehind ("[" ++ entry.level.paddedName ++ "]"))

end WorkingCopies.Log
