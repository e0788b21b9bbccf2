import WorkingCopies.Text.Unprintable

/-!
# Quoted text

A text between double quotes, for a message that has to show exactly which characters it holds:
quotes, backslashes and the common controls have an escape of their own, and every other character
without a shape is written by its code point.
-/

namespace WorkingCopies.Text

/-- The escape of a character that does not stand for itself in quotes. -/
def escape? (c : Char) : Option String :=
  match c with
  | '\x00' => some "\\0"
  | '\t' => some "\\t"
  | '\n' => some "\\n"
  | '\r' => some "\\r"
  | '"' => some "\\\""
  | '\\' => some "\\\\"
  | c =>
    if isUnprintable c then some ("\\u\x7b" ++ String.ofList (Nat.toDigits 16 c.toNat) ++ "\x7d")
    else none

/-- A text in double quotes. -/
def quoted (text : String) : String :=
  "\"" ++ String.join (text.toList.map fun c => (escape? c).getD c.toString) ++ "\""

end WorkingCopies.Text
