import WorkingCopies.Yaml.Cursor

/-!
# Block scalars

A scalar that is written as a block of indented lines behind a header. A literal one keeps the ends
of its lines; a folded one joins lines that start without a blank. The header may give the
indentation, and what is to be done with the ends of lines at the end of the block: all are kept,
one is, or none.
-/

namespace WorkingCopies.Yaml

/-- What is kept of the ends of lines at the end of a block scalar. -/
inductive Chomping where
  | none
  | one
  | all
  deriving Repr, DecidableEq

/-- The header of a block scalar. -/
structure BlockHeader where
  chomping : Chomping := .one
  /-- How much deeper than the block around it the scalar is indented, where that is said. -/
  depth : Option Nat := Option.none

namespace BlockHeader

/-- The chomping for a character of the header. -/
def chomping? : Char → Option Chomping
  | '+' => some .all
  | '-' => some .none
  | _ => Option.none

/-- Read the part of a header that gives the depth. -/
def readDepth (cursor : Cursor) : Except Error (Option Nat × Cursor) :=
  match cursor.next? with
  | some c =>
    if c == '0' then cursor.fail "found an indentation indicator equal to 0"
    else if c.isDigit then .ok (some (c.toNat - '0'.toNat), cursor.skip 1)
    else .ok (Option.none, cursor)
  | Option.none => .ok (Option.none, cursor)

/-- Read the part of a header that gives the chomping. -/
def readChomping (cursor : Cursor) : Option Chomping × Cursor :=
  match cursor.next?.bind chomping? with
  | some chomping => (some chomping, cursor.skip 1)
  | Option.none => (Option.none, cursor)

/-- Read a header and the rest of its line. The two parts may come in either order. -/
def read (cursor : Cursor) : Except Error (BlockHeader × Cursor) := do
  let (early, cursor) := readChomping cursor
  let (depth, cursor) ← readDepth cursor
  let (late, cursor) :=
    if early.isNone && depth.isSome then readChomping cursor else (Option.none, cursor)
  let cursor := (cursor.skipWhile isSpace).skipComment
  if !(cursor.rest.isEmpty || cursor.atBreak) then
    cursor.fail "did not find expected comment or line break"
  return ({ chomping := (early.or late).getD .one, depth }, cursor.skipLine)

end BlockHeader

/-- Read the empty lines before a line of a block scalar, and the indentation of that line. As long
as the indentation is not known, it is the greatest one seen. -/
def readIndentation (indent : Option Nat) :
    Nat → Nat → List Char → Cursor → Except Error (Nat × List Char × Cursor)
  | 0, greatest, breaks, cursor => .ok (greatest, breaks, cursor)
  | fuel + 1, greatest, breaks, cursor =>
    let blanks := (cursor.rest.takeWhile (· == ' ')).length
    let wanted := (indent.map fun n => min blanks (n - cursor.place.column)).getD blanks
    let cursor := cursor.skip wanted
    let greatest := max greatest cursor.place.column
    if indent.all (cursor.place.column < ·) && cursor.startsWith '\t' then
      cursor.fail "found a tab character where an indentation space is expected"
    else if cursor.atBreak then
      let (lineBreak, cursor) := cursor.readBreak
      readIndentation indent fuel greatest (breaks ++ lineBreak) cursor
    else .ok (greatest, breaks, cursor)

/-- The text of a block scalar so far, and the ends of lines behind it. -/
structure BlockText where
  text : List Char := []
  lastBreak : List Char := []
  emptyLines : List Char := []
  /-- Whether the last line started with a blank. -/
  startedBlank : Bool := false

namespace BlockText

/-- Add a line. Before a line that starts without a blank, a folded scalar turns the end of a line
without a blank into one blank, or into nothing when empty lines follow it. -/
def addLine (folded : Bool) (block : BlockText) (line lineBreak emptyLines : List Char) :
    BlockText :=
  let startsBlank := line.head?.any isSpace
  let joint :=
    if folded && block.lastBreak == ['\n'] && !block.startedBlank && !startsBlank then
      if block.emptyLines.isEmpty then [' '] else []
    else block.lastBreak
  { text := block.text ++ joint ++ block.emptyLines ++ line
    lastBreak := lineBreak
    emptyLines
    startedBlank := startsBlank }

/-- The text at the end of the block. -/
def chomp (block : BlockText) : Chomping → List Char
  | .none => block.text
  | .one => block.text ++ block.lastBreak
  | .all => block.text ++ block.lastBreak ++ block.emptyLines

end BlockText

/-- Read the lines of a block scalar with a known indentation. -/
def readBlockLines (folded : Bool) (indent : Nat) :
    Nat → BlockText → Cursor → Except Error (BlockText × Cursor)
  | 0, block, cursor => .ok (block, cursor)
  | fuel + 1, block, cursor => do
    if cursor.place.column != indent || cursor.rest.isEmpty then
      return (block, cursor)
    let (line, cursor) := cursor.readWhile fun c => !isBreak c
    let (lineBreak, cursor) := cursor.readBreak
    let (_, emptyLines, cursor) ←
      readIndentation (some indent) (cursor.rest.length + 1) 0 [] cursor
    readBlockLines folded indent fuel (block.addLine folded line lineBreak emptyLines) cursor

/-- Read a block scalar, from the mark on that begins it, inside a block of the given
indentation. -/
def readBlock (folded : Bool) (indent : Int) (cursor : Cursor) :
    Except Error (String × Cursor) := do
  let (header, cursor) ← BlockHeader.read (cursor.skip 1)
  let given := header.depth.map fun depth => (max indent 0).toNat + depth
  let (greatest, emptyLines, cursor) ←
    readIndentation given (cursor.rest.length + 1) 0 [] cursor
  let least := max (indent + 1).toNat 1
  let (block, cursor) ←
    readBlockLines folded (given.getD (max greatest least)) (cursor.rest.length + 1)
      { emptyLines } cursor
  return (String.ofList (block.chomp header.chomping), cursor)

end WorkingCopies.Yaml
