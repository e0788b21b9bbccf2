import WorkingCopies.Yaml.Token.Block
import WorkingCopies.Yaml.Token.Plain
import WorkingCopies.Yaml.Token.Quoted
import WorkingCopies.Yaml.Token.Word

/-!
# The tokens of a text

A text is turned into tokens from left to right. Indentation opens and closes blocks outside of
brackets. Whether a node is the key of a mapping shows only at the colon behind it, so every node
that may be a key is remembered as a candidate, and the mark for a key is put before it once the
colon is seen. A candidate lapses at the end of its line and after 1024 bytes.

The tokens may end in an error. A token that waits for what comes behind it to show whether it is a
key does not count as read when the error comes first.
-/

namespace WorkingCopies.Yaml

/-- A token that may turn out to begin a key. -/
structure Candidate where
  /-- The number of the token. -/
  number : Nat
  /-- Whether nothing but a key is possible there. -/
  isRequired : Bool
  place : Place

/-- How far a text has been turned into tokens. -/
structure Lexer where
  cursor : Cursor
  /-- The tokens so far, the last one first. -/
  found : List Token := []
  /-- The indentation of the innermost block, before the first block `-1`. -/
  indent : Int := -1
  /-- The indentations of the blocks around it. -/
  outerIndents : List Int := []
  /-- Whether a key may start at the cursor. -/
  keyAllowed : Bool := true
  /-- The candidate inside the innermost brackets. -/
  candidate : Option Candidate := none
  /-- The candidates outside of each of the open brackets, the innermost first. -/
  outerCandidates : List (Option Candidate) := []

namespace Lexer

/-- Whether the cursor is inside brackets. -/
def inFlow (lexer : Lexer) : Bool := !lexer.outerCandidates.isEmpty

/-- The place of the cursor. -/
def place (lexer : Lexer) : Place := lexer.cursor.place

/-- The column of the cursor. -/
def column (lexer : Lexer) : Int := lexer.cursor.place.column

/-- Add a token that starts at the cursor. -/
def add (lexer : Lexer) (kind : Token.Kind) : Lexer :=
  { lexer with found := ⟨kind, lexer.place⟩ :: lexer.found }

/-- Add a token before the one with a number. -/
def insert (lexer : Lexer) (number : Nat) (token : Token) : Lexer :=
  let later := lexer.found.length - number
  { lexer with found := lexer.found.take later ++ token :: lexer.found.drop later }

/-- Add a token that starts at the cursor, and step over its characters. -/
def addMark (lexer : Lexer) (kind : Token.Kind) (width : Nat) : Lexer :=
  { lexer.add kind with cursor := lexer.cursor.skip width }

/-- Add a token that starts at the cursor and ends before another place. -/
def addWord (lexer : Lexer) (kind : Token.Kind) (behind : Cursor) : Lexer :=
  { lexer.add kind with cursor := behind }

/-- Step over blanks, comments and ends of lines, and over a byte order mark that starts a line,
which is a character of that line like any other. Outside of brackets a key may start on every new
line, and where one may start, a tab may not stand before it. -/
def skipToToken : Nat → Lexer → Lexer
  | 0, lexer => lexer
  | fuel + 1, lexer =>
    let start := if lexer.place.column == 0 && lexer.cursor.startsWith '\ufeff' then 1 else 0
    let tabs := lexer.inFlow || !lexer.keyAllowed
    let cursor := (lexer.cursor.skip start).skipWhile fun c => c == ' ' || (tabs && c == '\t')
    let cursor := cursor.skipComment
    if cursor.atBreak then
      skipToToken fuel
        { lexer with cursor := cursor.skipLine, keyAllowed := lexer.keyAllowed || !lexer.inFlow }
    else { lexer with cursor }

/-- Whether a candidate has lapsed. -/
def hasLapsed (lexer : Lexer) (candidate : Candidate) : Bool :=
  candidate.place.line < lexer.place.line || candidate.place.index + 1024 < lexer.place.index

/-- Let a candidate lapse if its time has come. -/
def lapse (lexer : Lexer) : Option Candidate → Except Error (Option Candidate)
  | none => .ok none
  | some candidate =>
    if lexer.hasLapsed candidate then
      if candidate.isRequired then lexer.cursor.fail "could not find expected ':'" else .ok none
    else .ok (some candidate)

/-- Let all candidates lapse whose time has come. -/
def lapseAll (lexer : Lexer) : Except Error Lexer := do
  let outerCandidates ← lexer.outerCandidates.mapM lexer.lapse
  let candidate ← lexer.lapse lexer.candidate
  return { lexer with outerCandidates, candidate }

/-- Give up the candidate inside the innermost brackets. -/
def dropCandidate (lexer : Lexer) : Except Error Lexer :=
  if lexer.candidate.any (·.isRequired) then lexer.cursor.fail "could not find expected ':'"
  else .ok { lexer with candidate := none }

/-- Take the next token for a candidate, if a key may start here. -/
def addCandidate (lexer : Lexer) : Except Error Lexer := do
  if !lexer.keyAllowed then
    return lexer
  let lexer ← lexer.dropCandidate
  let isRequired := !lexer.inFlow && lexer.indent == lexer.column
  let candidate : Candidate :=
    { number := lexer.found.length, isRequired, place := lexer.place }
  return { lexer with candidate := some candidate }

/-- Open a block if a column lies deeper than the innermost block; its token goes before the one
with a number. -/
def openBlock (lexer : Lexer) (kind : Token.Kind) (number : Nat) (place : Place) : Lexer :=
  if lexer.inFlow || (place.column : Int) ≤ lexer.indent then lexer
  else { lexer.insert number ⟨kind, place⟩ with
    indent := place.column, outerIndents := lexer.indent :: lexer.outerIndents }

/-- Open a block at the cursor, if it lies deeper than the innermost block. -/
def openBlockHere (lexer : Lexer) (kind : Token.Kind) : Lexer :=
  lexer.openBlock kind lexer.found.length lexer.place

/-- The blocks that are indented deeper than a column. -/
def blocksBelow (column indent : Int) : List Int → List Int × Nat
  | [] => ([indent], 0)
  | outer :: outers =>
    if indent > column then
      let (rest, count) := blocksBelow column outer outers
      (rest, count + 1)
    else (indent :: outer :: outers, 0)

/-- Close the blocks that are indented deeper than a column. -/
def closeBlocks (lexer : Lexer) (column : Int) : Lexer :=
  if lexer.inFlow then lexer
  else
    let (indents, count) := blocksBelow column lexer.indent lexer.outerIndents
    { lexer with
      indent := indents.headD (-1)
      outerIndents := indents.drop 1
      found := List.replicate count ⟨.blockEnd, lexer.place⟩ ++ lexer.found }

/-- The end of the text. -/
def readEnd (lexer : Lexer) : Except Error Lexer := do
  let lexer ← (lexer.closeBlocks (-1)).dropCandidate
  return { lexer with keyAllowed := false }.add .streamEnd

/-- A directive. -/
def readDirectiveLine (lexer : Lexer) : Except Error Lexer := do
  let lexer ← (lexer.closeBlocks (-1)).dropCandidate
  let (kind, behind) ← readDirective lexer.cursor
  return { lexer with keyAllowed := false }.addWord kind behind

/-- The start or the end of a document. -/
def readDocumentMark (lexer : Lexer) (kind : Token.Kind) : Except Error Lexer := do
  let lexer ← (lexer.closeBlocks (-1)).dropCandidate
  return { lexer with keyAllowed := false }.addMark kind 3

/-- An opening bracket. -/
def readOpening (lexer : Lexer) (kind : Token.Kind) : Except Error Lexer := do
  let lexer ← lexer.addCandidate
  let lexer := { lexer with
    outerCandidates := lexer.candidate :: lexer.outerCandidates
    candidate := none
    keyAllowed := true }
  return lexer.addMark kind 1

/-- A closing bracket. -/
def readClosing (lexer : Lexer) (kind : Token.Kind) : Except Error Lexer := do
  let lexer ← lexer.dropCandidate
  let lexer := match lexer.outerCandidates with
    | [] => lexer
    | candidate :: outerCandidates => { lexer with candidate, outerCandidates }
  return { lexer with keyAllowed := false }.addMark kind 1

/-- A comma inside brackets. -/
def readFlowEntry (lexer : Lexer) : Except Error Lexer := do
  let lexer ← lexer.dropCandidate
  return { lexer with keyAllowed := true }.addMark .flowEntry 1

/-- The mark of an entry of a block sequence. -/
def readBlockEntry (lexer : Lexer) : Except Error Lexer := do
  if !lexer.inFlow && !lexer.keyAllowed then
    lexer.cursor.fail "block sequence entries are not allowed in this context"
  let lexer ← (lexer.openBlockHere .blockSequenceStart).dropCandidate
  return { lexer with keyAllowed := true }.addMark .blockEntry 1

/-- The mark of a key. -/
def readKey (lexer : Lexer) : Except Error Lexer := do
  if !lexer.inFlow && !lexer.keyAllowed then
    lexer.cursor.fail "mapping keys are not allowed in this context"
  let lexer ← (lexer.openBlockHere .blockMappingStart).dropCandidate
  return { lexer with keyAllowed := !lexer.inFlow }.addMark .key 1

/-- The mark of a value. It makes the candidate a key. -/
def readValue (lexer : Lexer) : Except Error Lexer :=
  match lexer.candidate with
  | some candidate =>
    let lexer := lexer.insert candidate.number ⟨.key, candidate.place⟩
    let lexer := lexer.openBlock .blockMappingStart candidate.number candidate.place
    .ok ({ lexer with candidate := none, keyAllowed := false }.addMark .value 1)
  | none => do
    if !lexer.inFlow && !lexer.keyAllowed then
      lexer.cursor.fail "mapping values are not allowed in this context"
    let lexer := lexer.openBlockHere .blockMappingStart
    return { lexer with keyAllowed := !lexer.inFlow }.addMark .value 1

/-- An anchor or an alias. -/
def readAnchor (lexer : Lexer) (kind : String → Token.Kind) : Except Error Lexer := do
  let lexer ← lexer.addCandidate
  let (name, behind) ← readAnchorName lexer.cursor
  return { lexer with keyAllowed := false }.addWord (kind name) behind

/-- A tag. -/
def readTagWord (lexer : Lexer) : Except Error Lexer := do
  let lexer ← lexer.addCandidate
  let (kind, behind) ← readTag lexer.inFlow lexer.cursor
  return { lexer with keyAllowed := false }.addWord kind behind

/-- A block scalar. -/
def readBlockScalar (lexer : Lexer) (folded : Bool) : Except Error Lexer := do
  let lexer ← lexer.dropCandidate
  let (text, behind) ← readBlock folded lexer.indent lexer.cursor
  return { lexer with keyAllowed := true }.addWord (.scalar text false) behind

/-- A quoted scalar. -/
def readQuotedScalar (lexer : Lexer) (quote : Char) : Except Error Lexer := do
  let lexer ← lexer.addCandidate
  let (text, behind) ← readQuoted quote lexer.cursor
  return { lexer with keyAllowed := false }.addWord (.scalar text false) behind

/-- A plain scalar. A key may start behind it when a new line was begun. -/
def readPlainScalar (lexer : Lexer) : Except Error Lexer := do
  let lexer ← lexer.addCandidate
  let (text, crossesLine, behind) ← readPlain lexer.inFlow lexer.indent lexer.cursor
  return { lexer with keyAllowed := crossesLine }.addWord (.scalar text true) behind

/-- Whether a plain scalar may start with a character. -/
def startsPlain (lexer : Lexer) (c : Char) : Bool :=
  if c == '-' then !isSpace ((lexer.cursor.rest.drop 1).headD ' ')
  else if c == '?' || c == ':' then !lexer.inFlow && !lexer.cursor.gapFollows
  else !(isGap (some c) || isFlowMark c || "#&*!|>'\"%@`".toList.contains c)

/-- Read a token that starts with a character. -/
def readMark (lexer : Lexer) (c : Char) : Except Error Lexer :=
  let gapFollows := lexer.cursor.gapFollows
  let atLineStart := lexer.place.column == 0
  if atLineStart && c == '%' then lexer.readDirectiveLine
  else if lexer.cursor.atMark ['-', '-', '-'] then lexer.readDocumentMark .documentStart
  else if lexer.cursor.atMark ['.', '.', '.'] then lexer.readDocumentMark .documentEnd
  else if c == '[' then lexer.readOpening .flowSequenceStart
  else if c == '{' then lexer.readOpening .flowMappingStart
  else if c == ']' then lexer.readClosing .flowSequenceEnd
  else if c == '}' then lexer.readClosing .flowMappingEnd
  else if c == ',' then lexer.readFlowEntry
  else if c == '-' && gapFollows then lexer.readBlockEntry
  else if c == '?' && (lexer.inFlow || gapFollows) then lexer.readKey
  else if c == ':' && (lexer.inFlow || gapFollows) then lexer.readValue
  else if c == '*' then lexer.readAnchor .aliasOf
  else if c == '&' then lexer.readAnchor .anchor
  else if c == '!' then lexer.readTagWord
  else if c == '|' && !lexer.inFlow then lexer.readBlockScalar false
  else if c == '>' && !lexer.inFlow then lexer.readBlockScalar true
  else if c == '\'' || c == '"' then lexer.readQuotedScalar c
  else if lexer.startsPlain c then lexer.readPlainScalar
  else lexer.cursor.fail "found character that cannot start any token"

/-- Read the next token, and say whether it is the last one. -/
def readToken (lexer : Lexer) : Except Error (Lexer × Bool) := do
  let lexer ← (skipToToken (lexer.cursor.rest.length + 1) lexer).lapseAll
  let lexer := lexer.closeBlocks lexer.column
  match lexer.cursor.next? with
  | none => return (← lexer.readEnd, true)
  | some c => return (← lexer.readMark c, false)

/-- The tokens that are certain: those before the first one that may still become a key. -/
def certain (lexer : Lexer) : List Token :=
  let pending := (lexer.candidate :: lexer.outerCandidates).filterMap fun candidate =>
    candidate.bind fun candidate =>
      if lexer.hasLapsed candidate then none else some candidate.number
  lexer.found.reverse.take (pending.foldl min lexer.found.length)

/-- Read tokens to the end of the text or to an error. -/
def readTokens : Nat → Lexer → List Token × Option Error
  | 0, lexer => (lexer.certain, some (lexer.place.error "found unexpected end of stream"))
  | fuel + 1, lexer =>
    match lexer.readToken with
    | .error error => (lexer.certain, some error)
    | .ok (lexer, isLast) =>
      if isLast then (lexer.found.reverse, none) else readTokens fuel lexer

end Lexer

/-- The tokens of a text, and the error that they end in. -/
def Token.ofText (text : String) : List Token × Option Error :=
  let characters := text.toList
  match characters.findIdx? fun c => !isAllowed c with
  | some index => ([], some (Place.error { index } "control characters are not allowed"))
  | none =>
    Lexer.readTokens (characters.length + 2) { cursor := { rest := characters } }

end WorkingCopies.Yaml
