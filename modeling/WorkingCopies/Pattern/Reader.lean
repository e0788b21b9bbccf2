import WorkingCopies.Pattern.Problem
import WorkingCopies.Text.Blank
import WorkingCopies.Text.Replace

/-!
# Reading a pattern

What is still to be read of a pattern, and what was learnt so far. Where blanks are ignored, a
comment, from a number sign to the end of its line, counts as blank too.
-/

namespace WorkingCopies.Pattern

/-- What is left of a pattern. -/
structure Reader where
  rest : List Char
  place : Place := {}
  /-- Whether blanks between the parts of the pattern have no meaning. -/
  ignoresBlanks : Bool := false
  /-- The names of groups so far. -/
  names : List (String × Span) := []

/-- Reading a pattern. -/
abbrev Reading := StateT Reader (Except Problem)

/-- What is left behind blanks and comments. -/
def behindBlanks (inComment : Bool) : List Char → Place → List Char × Place
  | [], place => ([], place)
  | c :: rest, place =>
    if inComment then behindBlanks (c != '\n') rest (place.behind c)
    else if Text.isBlank c then behindBlanks false rest (place.behind c)
    else if c == '#' then behindBlanks true rest (place.behind c)
    else (c :: rest, place)

namespace Reading

/-- The next character. -/
def next? : Reading (Option Char) := return (← get).rest.head?

/-- The place of the next character. -/
def here : Reading Place := return (← get).place

/-- The span from a place to here. -/
def spanFrom (start : Place) : Reading Span := return ⟨start, ← here⟩

/-- The span of the next character. -/
def spanOfNext : Reading Span := do
  let place ← here
  return ⟨place, ((← next?).map place.behind).getD place⟩

/-- The problem that a part is wrong. -/
def fail {α : Type} (kind : Problem.Kind) (span : Span) : Reading α :=
  throw (.malformed kind span none)

/-- The problem that the next character is wrong, or that there is none. -/
def failAtNext {α : Type} (kind : Problem.Kind) : Reading α := do fail kind (← spanOfNext)

/-- Step over the next character. -/
def skip : Reading Unit := modify fun reader =>
  match reader.rest with
  | [] => reader
  | c :: rest => { reader with rest, place := reader.place.behind c }

/-- Step over blanks that have no meaning. -/
def skipBlanks : Reading Unit := modify fun reader =>
  if reader.ignoresBlanks then
    let (rest, place) := behindBlanks false reader.rest reader.place
    { reader with rest, place }
  else reader

/-- Step over the next character and blanks without meaning, and give what comes next then. -/
def advance : Reading (Option Char) := do
  skip
  skipBlanks
  next?

/-- Step over a text if it comes next, and say whether it does. -/
def skipText (text : String) : Reading Bool := do
  if (Text.stripInitial? text.toList (← get).rest).isNone then
    return false
  text.toList.forM fun _ => skip
  return true

/-- The character that comes behind the next one and blanks without meaning. A number sign among
those hides only itself and blanks. -/
def afterNext? : Reading (Option Char) := do
  let reader ← get
  let behind := reader.rest.drop 1
  if !reader.ignoresBlanks then
    return behind.head?
  match behind.dropWhile Text.isBlank with
  | '#' :: rest => return (rest.dropWhile Text.isBlank).head? <|> behind.head?
  | c :: _ => return some c
  | [] => return behind.head?

/-- The number of characters that are left, and one more. No loop takes more steps. -/
def fuel : Reading Nat := return (← get).rest.length + 1

end Reading

end WorkingCopies.Pattern
