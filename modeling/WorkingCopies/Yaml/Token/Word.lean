import WorkingCopies.Text.Hexadecimal
import WorkingCopies.Yaml.Token

/-!
# Names, tags and directives

Words that say something about a node or about a document. The bytes of a tag may be written as
escapes of two hexadecimal digits, which together have to make up characters. A zero byte ends a
tag, whatever is written behind it.
-/

namespace WorkingCopies.Yaml

/-- Read the name of an anchor or an alias, from the mark on that begins it. -/
def readAnchorName (cursor : Cursor) : Except Error (String × Cursor) := do
  let (name, cursor) := (cursor.skip 1).readWhile isNameChar
  let isEnd := cursor.atGap || cursor.next?.any fun c => "?:,]\x7d%@`".toList.contains c
  if name.isEmpty || !isEnd then
    cursor.fail "did not find expected alphabetic or numeric character"
  return (String.ofList name, cursor)

/-- Whether a character may stand in a tag. Between angle brackets a few more may. -/
def isTagChar (inAngles : Bool) (c : Char) : Bool :=
  isNameChar c || ";/?:@&=+$.%!~*'()".toList.contains c || (inAngles && ",[]".toList.contains c)

/-- The value of two hexadecimal digits behind a percent sign. -/
def percentByte? : List Char → Option Nat
  | '%' :: high :: low :: _ => do return (← Text.hexValue? high) * 16 + (← Text.hexValue? low)
  | _ => none

/-- The number of bytes of a character that starts with a byte. -/
def widthOf? (first : Nat) : Option Nat :=
  if first < 0x80 then some 1
  else if first / 0x20 == 6 then some 2
  else if first / 0x10 == 14 then some 3
  else if first / 0x08 == 30 then some 4
  else none

/-- Read the escaped bytes that continue a character. -/
def readContinuation : Nat → Bytes → Cursor → Except Error (Bytes × Cursor)
  | 0, bytes, cursor => .ok (bytes, cursor)
  | count + 1, bytes, cursor =>
    match percentByte? cursor.rest with
    | none => cursor.fail "did not find URI escaped octet"
    | some byte =>
      if byte / 0x40 == 2 then
        readContinuation count (bytes ++ [UInt8.ofNat byte]) (cursor.skip 3)
      else cursor.fail "found an incorrect trailing UTF-8 octet"

/-- Read a character given by escaped bytes. -/
def readEscapedBytes (cursor : Cursor) : Except Error (Bytes × Cursor) :=
  match percentByte? cursor.rest with
  | none => cursor.fail "did not find URI escaped octet"
  | some byte =>
    match widthOf? byte with
    | none => cursor.fail "found an incorrect leading UTF-8 octet"
    | some width => readContinuation (width - 1) [UInt8.ofNat byte] (cursor.skip 3)

/-- Read the characters of a tag on, behind some of its bytes. -/
def readTagOn (inAngles : Bool) : Nat → Bytes → Cursor → Except Error (Bytes × Cursor)
  | 0, bytes, cursor => .ok (bytes, cursor)
  | fuel + 1, bytes, cursor =>
    match cursor.next? with
    | none => .ok (bytes, cursor)
    | some c =>
      if c == '%' then do
        let (more, cursor) ← readEscapedBytes cursor
        readTagOn inAngles fuel (bytes ++ more) cursor
      else if isTagChar inAngles c then
        readTagOn inAngles fuel (bytes ++ Text.encode c.toString) (cursor.skip 1)
      else .ok (bytes, cursor)

/-- Read the characters of a tag that follow `start`, and give its bytes up to the first zero. At
least one character is needed in all. -/
def readTagText (inAngles : Bool) (start : String) (cursor : Cursor) :
    Except Error (Bytes × Cursor) := do
  let (bytes, behind) ←
    readTagOn inAngles (cursor.rest.length + 1) (Text.encode (String.ofList (start.toList.drop 1)))
      cursor
  if start.isEmpty && bytes.isEmpty then
    cursor.fail "did not find expected tag URI"
  return (bytes.takeWhile (· != 0), behind)

/-- Read the handle of a tag: an exclamation mark, or a name between two of them. -/
def readTagHandle (inDirective : Bool) (cursor : Cursor) : Except Error (String × Cursor) := do
  if !cursor.startsWith '!' then
    cursor.fail "did not find expected '!'"
  let (name, cursor) := (cursor.skip 1).readWhile isNameChar
  if cursor.startsWith '!' then
    return (String.ofList ('!' :: name ++ ['!']), cursor.skip 1)
  if inDirective && !name.isEmpty then
    cursor.fail "did not find expected '!'"
  return (String.ofList ('!' :: name), cursor)

/-- Read a tag. Without a handle of its own, a tag has the handle `!`, and a tag between angle
brackets or a lone `!` the empty one. -/
def readTag (inFlow : Bool) (cursor : Cursor) : Except Error (Token.Kind × Cursor) := do
  let (kind, behind) ←
    if (cursor.rest.drop 1).head? == some '<' then do
      let (suffix, behind) ← readTagText true "" (cursor.skip 2)
      if !behind.startsWith '>' then
        behind.fail "did not find the expected '>'"
      pure (Token.Kind.tag "" suffix, behind.skip 1)
    else do
      let (handle, behind) ← readTagHandle false cursor
      if handle.length > 1 && handle.endsWith "!" then do
        let (suffix, behind) ← readTagText false "" behind
        pure (Token.Kind.tag handle suffix, behind)
      else do
        let (suffix, behind) ← readTagText false handle behind
        if suffix.isEmpty then pure (Token.Kind.tag "" (Text.encode "!"), behind)
        else pure (Token.Kind.tag "!" suffix, behind)
  if !(behind.atGap || (inFlow && behind.startsWith ',')) then
    behind.fail "did not find expected whitespace or line break"
  return (kind, behind)

/-- Read one of the two numbers of a version, of nine digits at most. -/
def readVersionNumber (cursor : Cursor) : Except Error (Nat × Cursor) := do
  let (digits, cursor) := cursor.readWhile Char.isDigit
  if digits.isEmpty then
    cursor.fail "did not find expected version number"
  if digits.length > 9 then
    cursor.fail "found extremely long version number"
  return (digits.foldl (fun n c => n * 10 + (c.toNat - '0'.toNat)) 0, cursor)

/-- Read what a version directive says. -/
def readVersion (cursor : Cursor) : Except Error (Token.Kind × Cursor) := do
  let (major, cursor) ← readVersionNumber (cursor.skipWhile isSpace)
  if !cursor.startsWith '.' then
    cursor.fail "did not find expected digit or '.' character"
  let (minor, cursor) ← readVersionNumber (cursor.skip 1)
  return (.versionDirective major minor, cursor)

/-- Read what a tag directive says. -/
def readTagDirective (cursor : Cursor) : Except Error (Token.Kind × Cursor) := do
  let (handle, cursor) ← readTagHandle true (cursor.skipWhile isSpace)
  if !cursor.atSpace then
    cursor.fail "did not find expected whitespace"
  let (target, cursor) ← readTagText true "" (cursor.skipWhile isSpace)
  if !cursor.atGap then
    cursor.fail "did not find expected whitespace or line break"
  return (.tagDirective handle target, cursor)

/-- Read a directive and the end of its line. -/
def readDirective (cursor : Cursor) : Except Error (Token.Kind × Cursor) := do
  let (name, behind) := (cursor.skip 1).readWhile isNameChar
  if name.isEmpty then
    behind.fail "could not find expected directive name"
  if !behind.atGap then
    behind.fail "found unexpected non-alphabetical character"
  let (kind, behind) ← match String.ofList name with
    | "YAML" => readVersion behind
    | "TAG" => readTagDirective behind
    | _ => behind.fail "found unknown directive name"
  let behind := (behind.skipWhile isSpace).skipComment
  if !(behind.rest.isEmpty || behind.atBreak) then
    behind.fail "did not find expected comment or line break"
  return (kind, behind.skipLine)

end WorkingCopies.Yaml
