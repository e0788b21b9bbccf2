import WorkingCopies.Yaml.Character
import WorkingCopies.Yaml.Error

/-!
# Places in a text

A cursor is the part of a text that is still to be read, with the number of bytes, lines and
characters of the current line behind it.
-/

namespace WorkingCopies.Yaml

/-- A place in a text, counted from zero. -/
structure Place where
  /-- The bytes before the place. -/
  index : Nat := 0
  line : Nat := 0
  column : Nat := 0
  deriving Repr, DecidableEq, Inhabited

/-- The error that something is wrong at a place. -/
def Place.error (place : Place) (problem : String) : Error :=
  .malformed (place.line + 1) (place.column + 1) problem

/-- What is still to be read, and where it starts. -/
structure Cursor where
  rest : List Char
  place : Place := {}

namespace Cursor

/-- The next character. -/
def next? (cursor : Cursor) : Option Char := cursor.rest.head?

/-- Whether a character comes next. -/
def startsWith (cursor : Cursor) (c : Char) : Bool := cursor.next? == some c

/-- Whether what comes next separates words. -/
def atGap (cursor : Cursor) : Bool := isGap cursor.next?

/-- Whether what comes next ends a line. -/
def atBreak (cursor : Cursor) : Bool := cursor.next?.any isBreak

/-- Whether a blank or a tab comes next. -/
def atSpace (cursor : Cursor) : Bool := cursor.next?.any isSpace

/-- Whether the character behind the next one, if there is one, separates words. -/
def gapFollows (cursor : Cursor) : Bool := isGap (cursor.rest.drop 1).head?

/-- The place in bytes behind the next characters. -/
def indexBehind (cursor : Cursor) (count : Nat) : Nat :=
  (cursor.rest.take count).foldl (fun index c => index + c.utf8Size) cursor.place.index

/-- Step over characters of the current line. -/
def skip (cursor : Cursor) (count : Nat) : Cursor where
  rest := cursor.rest.drop count
  place := { cursor.place with
    index := cursor.indexBehind count, column := cursor.place.column + count }

/-- Step over the end of a line that has `width` characters. -/
def skipBreak (cursor : Cursor) (width : Nat) : Cursor where
  rest := cursor.rest.drop width
  place := { index := cursor.indexBehind width, line := cursor.place.line + 1, column := 0 }

/-- Step over the end of a line, if it comes next, and give the character it stands for: a line
feed, except for the two separators, which stand for themselves. -/
def readBreak (cursor : Cursor) : List Char × Cursor :=
  match cursor.rest with
  | '\r' :: '\n' :: _ => (['\n'], cursor.skipBreak 2)
  | c :: _ =>
    if c == '\u2028' || c == '\u2029' then ([c], cursor.skipBreak 1)
    else if isBreak c then (['\n'], cursor.skipBreak 1)
    else ([], cursor)
  | [] => ([], cursor)

/-- Step over the end of a line, if it comes next. -/
def skipLine (cursor : Cursor) : Cursor := cursor.readBreak.2

/-- Step over characters of the current line as long as a test holds, and give them. -/
def readWhile (cursor : Cursor) (test : Char → Bool) : List Char × Cursor :=
  let taken := cursor.rest.takeWhile test
  (taken, cursor.skip taken.length)

/-- Step over characters of the current line as long as a test holds. -/
def skipWhile (cursor : Cursor) (test : Char → Bool) : Cursor := (cursor.readWhile test).2

/-- Step over a comment, if one comes next. -/
def skipComment (cursor : Cursor) : Cursor :=
  if cursor.startsWith '#' then cursor.skipWhile fun c => !isBreak c else cursor

/-- Whether a line starts here with the given three characters and nothing right behind them. -/
def atMark (cursor : Cursor) (mark : List Char) : Bool :=
  cursor.place.column == 0 && cursor.rest.take 3 == mark && isGap (cursor.rest.drop 3).head?

/-- Whether a line starts here that begins or ends a document. -/
def atDocumentMark (cursor : Cursor) : Bool :=
  cursor.atMark ['-', '-', '-'] || cursor.atMark ['.', '.', '.']

/-- The error that something is wrong here. -/
def fail {α : Type} (cursor : Cursor) (problem : String) : Except Error α :=
  .error (cursor.place.error problem)

/-- Stepping over the end of a line leaves less to read. -/
theorem length_skipLine_lt {cursor : Cursor} {c : Char} {rest : List Char}
    (h : cursor.rest = c :: rest) (hc : isBreak c = true) :
    cursor.skipLine.rest.length < cursor.rest.length := by
  simp only [skipLine, readBreak, h]
  split
  · simp only [skipBreak, h, List.length_drop, List.length_cons]
    omega
  · rename_i heq
    cases heq
    split
    · simp [skipBreak, h]
    · simp [skipBreak, h]
  · simp_all

end Cursor

end WorkingCopies.Yaml
