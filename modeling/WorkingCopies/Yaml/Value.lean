import WorkingCopies.Decimal.Layout
import WorkingCopies.Text.Quoted
import WorkingCopies.Yaml.Error

/-!
# Values of YAML

What a document means. Two values may be equal without being written alike: the order of the entries
of a mapping does not count, nor does the sign of zero.
-/

namespace WorkingCopies.Yaml

open WorkingCopies.Decimal (Binary64 Layout)

/-- The value of a node. -/
inductive Value where
  | null
  | boolean (value : Bool)
  | integer (value : Int)
  | float (value : Binary64)
  | text (value : String)
  | sequence (items : List Value)
  | mapping (entries : List (Value × Value))
  | tagged (tag : String) (value : Value)
  deriving Inhabited

/-- How a floating point number is written as the text of a field. -/
def fieldLayout : Layout where
  tie := .toEven
  isPositional place := -5 < place && place ≤ 16
  infinity := ".inf"
  negativeInfinity := "-.inf"
  undefined := ".nan"

/-- How a floating point number is written in an error. -/
def errorLayout : Layout where
  tie := .up
  isPositional _ := true
  infinity := "inf"
  negativeInfinity := "-inf"
  undefined := "NaN"

/-- A tag without the exclamation mark before its name. -/
def tagName (tag : String) : String :=
  match tag.toList with
  | '!' :: c :: rest => String.ofList (c :: rest)
  | _ => tag

namespace Value

mutual

/-- Whether two values are equal. -/
def same : Value → Value → Bool
  | null, null => true
  | boolean a, boolean b => a == b
  | integer a, integer b => a == b
  | float a, float b => a.sameValue b
  | text a, text b => a == b
  | sequence as, sequence bs => sameItems as bs
  | mapping as, mapping bs => as.length == bs.length && sameEntries as bs
  | tagged s a, tagged t b => tagName s == tagName t && same a b
  | _, _ => false

/-- Whether two sequences are equal. -/
def sameItems : List Value → List Value → Bool
  | [], [] => true
  | a :: as, b :: bs => same a b && sameItems as bs
  | _, _ => false

/-- Whether a mapping has all given entries. -/
def sameEntries : List (Value × Value) → List (Value × Value) → Bool
  | [], _ => true
  | (key, value) :: entries, others =>
    others.any (fun other => same key other.1 && same value other.2) && sameEntries entries others

end

/-- A value without its tags. -/
def untagged : Value → Value
  | tagged _ value => value.untagged
  | value => value

/-- The text that a value is, if it is one. -/
def text? (value : Value) : Option String :=
  match value.untagged with
  | text content => some content
  | _ => none

/-- A text, number or truth value as a text. -/
def scalarText? : Value → Option String
  | text content => some content
  | integer value => some (toString value)
  | float value => some (fieldLayout.write value)
  | boolean value => some (if value then "true" else "false")
  | _ => none

/-- What an error says about a value that is not wanted. -/
def describe : Value → String
  | null => "unit value"
  | boolean value => "boolean `" ++ (if value then "true" else "false") ++ "`"
  | integer value => "integer `" ++ toString value ++ "`"
  | float value => "floating point `" ++ errorLayout.write value ++ "`"
  | text value => "string " ++ Text.quoted value
  | sequence _ => "sequence"
  | mapping _ => "map"
  | tagged .. => "enum"

/-- A text, where one is wanted. -/
def asText (value : Value) (expected : String) : Except Error String :=
  match value.untagged with
  | text content => .ok content
  | other => .error (.wrongShape other.describe expected)

/-- A list of texts, where one is wanted. Nothing is the empty list. -/
def asTexts (value : Value) : Except Error (List String) :=
  match value.untagged with
  | sequence items => items.mapM fun item => item.asText "a string"
  | null => .ok []
  | other => .error (.wrongShape other.describe "a sequence")

/-- The value of a key that is a text without a tag. -/
def lookup? (entries : List (Value × Value)) (key : String) : Option Value :=
  entries.findSome? fun entry => match entry.1 with
    | text content => if content == key then some entry.2 else none
    | _ => none

end Value

end WorkingCopies.Yaml
