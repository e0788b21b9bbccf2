/-!
# JSON texts

Texts and lists of texts as JSON, one item a line.
-/

namespace WorkingCopies.Text

/-- A hexadecimal number of four digits. -/
def fourHexDigits (n : Nat) : String :=
  let digits := Nat.toDigits 16 n
  String.ofList (List.replicate (4 - digits.length) '0' ++ digits)

/-- A character inside a JSON string. Quotes, backslashes and controls are escaped. -/
def jsonEscape (c : Char) : String :=
  match c with
  | '"' => "\\\""
  | '\\' => "\\\\"
  | '\n' => "\\n"
  | '\r' => "\\r"
  | '\t' => "\\t"
  | '\x08' => "\\b"
  | '\x0c' => "\\f"
  | c => if c.toNat < 0x20 then "\\u" ++ fourHexDigits c.toNat else c.toString

/-- A text as a JSON string. -/
def jsonString (text : String) : String :=
  "\"" ++ String.join (text.toList.map jsonEscape) ++ "\""

/-- Texts as a JSON array, indented by two blanks. -/
def jsonArray (texts : List String) : String :=
  if texts.isEmpty then "[]"
  else "[\n" ++ ",\n".intercalate (texts.map fun text => "  " ++ jsonString text) ++ "\n]"

end WorkingCopies.Text
