import WorkingCopies.Text.Hexadecimal
import WorkingCopies.Yaml.Cursor
import WorkingCopies.Yaml.Value

/-!
# Plain scalars and their values

A scalar without quotes is null, a truth value or a number if it is written like one, and a text
otherwise. Digits behind a leading zero are a text. An integer has to fit into 64 bits, with or
without a sign; one that needs more is refused up to 128 bits and read as a floating point number
beyond that.
-/

namespace WorkingCopies.Yaml

open WorkingCopies.Decimal (Binary64)

namespace Scalar

/-- Whether a scalar is written as null. -/
def isNull (text : String) : Bool := ["null", "Null", "NULL", "~"].contains text

/-- The truth value that a scalar is written as. -/
def boolean? (text : String) : Option Bool :=
  if ["true", "True", "TRUE"].contains text then some true
  else if ["false", "False", "FALSE"].contains text then some false
  else none

/-- The value of a digit in bases up to sixteen. -/
def digit? (base : Nat) (c : Char) : Option Nat :=
  (Text.hexValue? c).bind fun value => if value < base then some value else none

/-- The number that some digits stand for. There has to be at least one digit. -/
def digits? (base : Nat) (text : List Char) : Option Nat :=
  if text.isEmpty then none
  else (text.mapM (digit? base)).map fun values => values.foldl (fun n d => n * base + d) 0

/-- Whether a scalar is a sign, or none, and digits that start with an idle zero. -/
def hasIdleZero (text : List Char) : Bool :=
  let unsigned := match text with
    | '+' :: rest | '-' :: rest => rest
    | rest => rest
  match unsigned with
  | '0' :: c :: rest => (c :: rest).all Char.isDigit
  | _ => false

/-- The number of an unsigned integer: decimal, or in another base shown by its first two
characters. -/
def magnitude? (text : List Char) : Option Nat :=
  match text with
  | '0' :: 'x' :: rest => digits? 16 rest
  | '0' :: 'o' :: rest => digits? 8 rest
  | '0' :: 'b' :: rest => digits? 2 rest
  | rest => digits? 10 rest

/-- The integer that a scalar is written as, of any size. -/
def integer? (text : List Char) : Option Int :=
  if hasIdleZero text then none
  else match text with
    | '-' :: rest => (magnitude? rest).map fun n => -(n : Int)
    | '+' :: rest | rest => (magnitude? rest).map Int.ofNat

/-- A sign, or none, and the rest. -/
def splitSign : List Char → Bool × List Char
  | '-' :: rest => (true, rest)
  | '+' :: rest => (false, rest)
  | rest => (false, rest)

/-- The exponent of a decimal number, from its mark on. -/
def exponent? : List Char → Option Int
  | [] => some 0
  | mark :: rest =>
    if mark == 'e' || mark == 'E' then
      let (negative, digits) := splitSign rest
      (digits? 10 digits).map fun n => if negative then -(n : Int) else n
    else none

/-- The number that decimal digits stand for, with a point, an exponent or neither. -/
def decimal? (text : List Char) : Option Binary64 := do
  let (negative, text) := splitSign text
  let whole := text.takeWhile Char.isDigit
  let behind := text.drop whole.length
  let (fraction, behind) := match behind with
    | '.' :: rest => (rest.takeWhile Char.isDigit, rest.dropWhile Char.isDigit)
    | rest => ([], rest)
  let digits ← digits? 10 (whole ++ fraction)
  let exponent ← exponent? behind
  return .ofDecimal negative digits (exponent - fraction.length)

/-- The floating point number that a scalar is written as. Decimal digits have to stand for a finite
one. -/
def float? (text : List Char) : Option Binary64 :=
  let unsigned := match text with
    | '+' :: rest => rest
    | rest => rest
  if text.head? == some '+' && (unsigned.head? == some '+' || unsigned.head? == some '-') then none
  else if [".inf", ".Inf", ".INF"].contains (String.ofList unsigned) then some (.infinite false)
  else if ["-.inf", "-.Inf", "-.INF"].contains (String.ofList text) then some (.infinite true)
  else if [".nan", ".NaN", ".NAN"].contains (String.ofList text) then some .undefined
  else (decimal? unsigned).filter Binary64.isFinite

/-- What an integer is worth by its size. -/
inductive Sized where
  | integer (value : Int)
  | tooLarge
  | beyond

/-- Whether an integer is at least minus the one power of two and less than the other. -/
def isBetween (below above : Nat) (value : Int) : Bool :=
  -(Nat.pow 2 below : Int) ≤ value && value < (Nat.pow 2 above : Int)

/-- The size of an integer. -/
def sized (value : Int) : Sized :=
  if isBetween 63 64 value then .integer value
  else if isBetween 127 128 value then .tooLarge
  else .beyond

/-- The value of a scalar that is written as an integer of bounded size; `none` for any other. -/
def integerValue? (place : Place) (text : String) : Except Error (Option Value) :=
  match (integer? text.toList).map sized with
  | some (.integer value) => .ok (some (.integer value))
  | some .tooLarge => .error (place.error "integer does not fit into 64 bits")
  | some .beyond | none => .ok none

/-- The value of a plain scalar. -/
def plainValue (place : Place) (text : String) : Except Error Value := do
  if text.isEmpty || isNull text then
    return .null
  if let some value := boolean? text then
    return .boolean value
  if let some value ← integerValue? place text then
    return value
  if !hasIdleZero text.toList then
    if let some value := float? text.toList then
      return .float value
  return .text text

/-- The start of the names of the tags for the types of scalars. -/
def coreTag (name : String) : String := "tag:yaml.org,2002:" ++ name

/-- The value of a scalar under a tag that is not the name of a type of the document's own. -/
def taggedValue (place : Place) (tag : Option String) (text : String) : Except Error Value := do
  if tag == some (coreTag "bool") then
    match boolean? text with
    | some value => return .boolean value
    | none => throw (place.error "expected a boolean")
  else if tag == some (coreTag "int") then
    match ← integerValue? place text with
    | some value => return value
    | none => throw (place.error "expected an integer")
  else if tag == some (coreTag "float") then
    match float? text.toList with
    | some value => return .float value
    | none => throw (place.error "expected a float")
  else if tag == some (coreTag "null") then
    if isNull text then return .null else throw (place.error "expected null")
  else
    return .text text

end Scalar

end WorkingCopies.Yaml
