import WorkingCopies.Pattern.Reader
import WorkingCopies.Pattern.Tree
import WorkingCopies.Text.Hexadecimal

/-!
# Escapes in patterns

A backslash takes the meaning from a mark, or gives one to a letter: a character by its number, a
class of characters, or a boundary.
-/

namespace WorkingCopies.Pattern

/-- Whether a character is a mark with a meaning somewhere in a pattern, or would have none behind a
backslash: all ASCII characters but letters, digits and angle brackets. -/
def isEscapable (c : Char) : Bool := c.toNat < 0x80 && !c.isAlphanum && c != '<' && c != '>'

/-- The control characters that letters stand for. -/
def controlOf? : Char → Option Char
  | 'a' => some '\x07'
  | 'f' => some '\x0c'
  | 't' => some '\t'
  | 'n' => some '\n'
  | 'r' => some '\r'
  | 'v' => some '\x0b'
  | _ => none

/-- The boundaries that letters and angle brackets stand for. -/
def boundaryOf? : Char → Option Boundary
  | 'A' => some .textStart
  | 'z' => some .textEnd
  | 'b' => some .word
  | 'B' => some .noWord
  | '<' => some .wordStart
  | '>' => some .wordEnd
  | _ => none

/-- The boundaries with names. -/
def boundaryNamed? : String → Option Boundary
  | "start" => some .wordStart
  | "end" => some .wordEnd
  | "start-half" => some .wordStartHalf
  | "end-half" => some .wordEndHalf
  | _ => none

namespace Reading

/-- Step over some characters as long as a test holds and more follow, without the blanks that have
no meaning, and give them. -/
def collect (test : Char → Bool) : Nat → Reading (List Char)
  | 0 => return []
  | fuel + 1 => do
    match ← next? with
    | some c =>
      if test c then
        discard advance
        return c :: (← collect test fuel)
      return []
    | none => return []

/-- Read a given number of hexadecimal digits behind those that make up a value. -/
def hexDigits : Nat → Nat → Reading Nat
  | 0, value => return value
  | count + 1, value => do
    match ← next? with
    | none => failAtNext .openEscape
    | some c =>
      match Text.hexValue? c with
      | none => failAtNext .notHexadecimal
      | some digit =>
        discard advance
        hexDigits count (value * 16 + digit)

/-- The character with a number. -/
def character (span : Span) (number : Nat) : Reading Char :=
  if number.isValidChar then return Char.ofNat number else fail .noCharacter span

/-- Read the number of a character between braces, from the opening one on. -/
def bracedCharacter (start : Place) : Reading Literal := do
  let brace ← here
  discard advance
  let written ← collect (fun c => (Text.hexValue? c).isSome) (← fuel)
  match ← next? with
  | none => fail .openEscape (← spanFrom brace)
  | some '}' =>
    let span ← spanFrom (brace.behind '{')
    discard advance
    if written.isEmpty then
      fail .noDigits (← spanFrom brace)
    let number := (written.filterMap Text.hexValue?).foldl (fun n digit => n * 16 + digit) 0
    return { span := ← spanFrom start, char := ← character span number }
  | some _ => failAtNext .notHexadecimal

/-- Read the number of a character, behind the letter that announces it and how many digits it
has. -/
def numberedCharacter (start : Place) (letter : Char) : Reading Literal := do
  match ← advance with
  | none => failAtNext .openEscape
  | some '{' => bracedCharacter start
  | some _ =>
    let digits ← here
    let number ← hexDigits (if letter == 'x' then 2 else if letter == 'u' then 4 else 8) 0
    let char ← character (← spanFrom digits) number
    return { span := ← spanFrom start, char, isByte := letter == 'x' }

/-- Read the name of a property, behind the letter that announces it. -/
def property (start : Place) : Reading Tree := do
  match ← advance with
  | none => failAtNext .openEscape
  | some '{' =>
    discard advance
    let name ← collect (· != '}') (← fuel)
    if (← next?).isNone then
      failAtNext .openEscape
    skip
    return .property (← spanFrom start) (String.ofList name)
  | some '\\' => failAtNext .propertyName
  | some c =>
    discard advance
    return .property (← spanFrom start) c.toString

/-- Read the name of a boundary between braces, if there is one: it starts with a letter or a
hyphen. -/
def namedBoundary? (start : Place) : Reading (Option Boundary) := do
  let before ← get
  let isNamePart (c : Char) : Bool := c.isAlpha || c == '-'
  match ← advance with
  | none => fail .openBraceBehindBoundary (← spanFrom start)
  | some c =>
    if !isNamePart c then
      set before
      return none
    let first ← here
    let name ← collect isNamePart (← fuel)
    if (← next?) != some '}' then
      fail .openBoundary (← spanFrom before.place)
    let span ← spanFrom first
    skip
    match boundaryNamed? (String.ofList name) with
    | some boundary => return some boundary
    | none => fail .unknownBoundary span

/-- Read an escape of one letter or mark. -/
def simpleEscape (start : Place) (c : Char) : Reading Tree := do
  skip
  let span ← spanFrom start
  if isEscapable c then
    return .literal { span, char := c }
  if let some char := controlOf? c then
    return .literal { span, char }
  match boundaryOf? c with
  | none => fail .unknownEscape span
  | some boundary =>
    if c == 'b' && (← next?) == some '{' then
      if let some boundary ← namedBoundary? start then
        return .boundary (← spanFrom start) boundary
    return .boundary span boundary

/-- Read an escape, from the backslash on. -/
def escape : Reading Tree := do
  let start ← here
  skip
  match ← next? with
  | none => fail .openEscape (← spanFrom start)
  | some c =>
    if c.isDigit then
      fail .backreference ⟨start, (← here).behind c⟩
    else if c == 'x' || c == 'u' || c == 'U' then
      return .literal (← numberedCharacter start c)
    else if c == 'p' || c == 'P' then property start
    else
      let shorthand (name : NamedClass) : Reading Tree := do
        skip
        return .shorthand (← spanFrom start) name c.isUpper
      match c.toLower with
      | 'd' => shorthand .digit
      | 's' => shorthand .space
      | 'w' => shorthand .word
      | _ => simpleEscape start c

end Reading

end WorkingCopies.Pattern
