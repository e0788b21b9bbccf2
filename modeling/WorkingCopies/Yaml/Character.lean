/-!
# Characters of YAML

The classes of characters that YAML tells apart.
-/

namespace WorkingCopies.Yaml

/-- Whether a character may stand in a YAML text at all. -/
def isAllowed (c : Char) : Bool :=
  let n := c.toNat
  n == 0x09 || n == 0x0A || n == 0x0D || (0x20 ≤ n && n ≤ 0x7E) || n == 0x85 ||
    (0xA0 ≤ n && n ≤ 0xFFFD) || 0x10000 ≤ n

/-- Whether a character ends a line: carriage return, line feed, next line, line separator and
paragraph separator do. -/
def isBreak (c : Char) : Bool :=
  c == '\r' || c == '\n' || c == '\u0085' || c == '\u2028' || c == '\u2029'

/-- Blank or tab. -/
def isSpace (c : Char) : Bool := c == ' ' || c == '\t'

/-- Whether what comes next separates words: a blank, a tab, the end of a line or of the text. -/
def isGap : Option Char → Bool
  | some c => isSpace c || isBreak c
  | none => true

/-- A character of a name: a letter, a digit, an underscore or a hyphen. -/
def isNameChar (c : Char) : Bool := c.isAlphanum || c == '_' || c == '-'

/-- A character that opens, closes or separates inside brackets. -/
def isFlowMark (c : Char) : Bool := c == ',' || c == '[' || c == ']' || c == '{' || c == '}'

end WorkingCopies.Yaml
