import WorkingCopies.Text.Hexadecimal
import WorkingCopies.Yaml.Token.Gap

/-!
# Quoted scalars

Between single quotes only the quote itself has to be doubled. Between double quotes a backslash
starts an escape, and one at the end of a line joins the line with the next.
-/

namespace WorkingCopies.Yaml

/-- The character for an escape of one letter. -/
def escapes : List (Char × Char) :=
  [('0', '\x00'), ('a', '\x07'), ('b', '\x08'), ('t', '\t'), ('\t', '\t'), ('n', '\n'),
   ('v', '\x0b'), ('f', '\x0c'), ('r', '\r'), ('e', '\x1b'), (' ', ' '), ('"', '"'), ('/', '/'),
   ('\\', '\\'), ('N', '\u0085'), ('_', '\u00a0'), ('L', '\u2028'), ('P', '\u2029')]

/-- The number of hexadecimal digits behind an escape that gives a code point. -/
def escapeWidths : List (Char × Nat) := [('x', 2), ('u', 4), ('U', 8)]

/-- The value of some hexadecimal digits, if they are as many as wanted. -/
def hexNumber? (width : Nat) (digits : List Char) : Option Nat :=
  if digits.length == width then
    (digits.mapM Text.hexValue?).map fun values => values.foldl (fun n value => n * 16 + value) 0
  else none

/-- Read an escape, from its backslash on. -/
def readEscape (cursor : Cursor) : Except Error (Char × Cursor) :=
  match (cursor.rest.drop 1).head? with
  | none => cursor.fail "found unknown escape character"
  | some letter =>
    match escapes.lookup letter, escapeWidths.lookup letter with
    | some c, _ => .ok (c, cursor.skip 2)
    | none, none => cursor.fail "found unknown escape character"
    | none, some width =>
      match hexNumber? width ((cursor.rest.drop 2).take width) with
      | none => cursor.fail "did not find expected hexdecimal number"
      | some point =>
        if point.isValidChar then .ok (Char.ofNat point, cursor.skip (2 + width))
        else cursor.fail "found invalid Unicode character escape code"

/-- Read the characters of a word, up to a gap or the closing quote, onto those already read, the
last one first. The flag says that the word ended in the escaped end of a line, which is read as
well. -/
def readQuotedWord (quote : Char) :
    Nat → List Char → Cursor → Except Error (List Char × Bool × Cursor)
  | 0, word, cursor => .ok (word.reverse, false, cursor)
  | fuel + 1, word, cursor =>
    match cursor.rest with
    | [] => .ok (word.reverse, false, cursor)
    | c :: rest =>
      if isGap (some c) then .ok (word.reverse, false, cursor)
      else if c == quote then
        if quote == '\'' && rest.head? == some '\'' then
          readQuotedWord quote fuel ('\'' :: word) (cursor.skip 2)
        else .ok (word.reverse, false, cursor)
      else if c == '\\' && quote == '"' then
        if rest.head?.any isBreak then .ok (word.reverse, true, (cursor.skip 1).skipLine)
        else do
          let (c, cursor) ← readEscape cursor
          readQuotedWord quote fuel (c :: word) cursor
      else readQuotedWord quote fuel (c :: word) (cursor.skip 1)

/-- Read a quoted scalar on, behind some of its text, up to and with the closing quote. -/
def readQuotedOn (quote : Char) : Nat → List Char → Cursor → Except Error (List Char × Cursor)
  | 0, _, cursor => cursor.fail "found unexpected end of stream"
  | fuel + 1, text, cursor => do
    if cursor.atDocumentMark then
      cursor.fail "found unexpected document indicator"
    if cursor.rest.isEmpty then
      cursor.fail "found unexpected end of stream"
    let (word, joined, behind) ← readQuotedWord quote (cursor.rest.length + 1) [] cursor
    if behind.startsWith quote then
      return (text ++ word, behind.skip 1)
    let (gap, behind) ← Gap.read 0 { crossesLine := joined } behind
    readQuotedOn quote fuel (text ++ word ++ gap.text) behind

/-- Read a quoted scalar, from its opening quote on. -/
def readQuoted (quote : Char) (cursor : Cursor) : Except Error (String × Cursor) := do
  let (text, cursor) ← readQuotedOn quote (cursor.rest.length + 1) [] (cursor.skip 1)
  return (String.ofList text, cursor)

end WorkingCopies.Yaml
