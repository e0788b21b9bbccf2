import WorkingCopies.Decimal.Shortest

/-!
# Written numbers

A binary number is written with its shortest decimal digits. A layout fixes the rest: which numbers
are written out in full and which with an exponent, and the words for what is no finite number.
-/

namespace WorkingCopies.Decimal

/-- How numbers are written. -/
structure Layout where
  tie : Tie
  /-- Whether a number is written without an exponent, by the place of its first digit: place one
  holds the ones, place two the tens, place zero the tenths. -/
  isPositional : Int → Bool
  infinity : String
  negativeInfinity : String
  undefined : String

namespace Layout

/-- Several zeros. -/
def zeros (count : Nat) : String := String.ofList (List.replicate count '0')

/-- A decimal written out in full, with at least one digit on either side of the point. -/
def positional (text : String) (exponent place : Int) : String :=
  if exponent ≥ 0 then text ++ zeros exponent.toNat ++ ".0"
  else if place > 0 then
    let split := text.toList.splitAt place.toNat
    String.ofList split.1 ++ "." ++ String.ofList split.2
  else "0." ++ zeros (-place).toNat ++ text

/-- A decimal with one digit before the point and an exponent. -/
def scientific (text : String) (place : Int) : String :=
  let mantissa := match text.toList with
    | first :: second :: rest => String.ofList (first :: '.' :: second :: rest)
    | _ => text
  mantissa ++ "e" ++ toString (place - 1)

/-- A decimal in a layout. -/
def writeDigits (layout : Layout) (decimal : Digits) : String :=
  let text := toString decimal.digits
  let place := text.length + decimal.exponent
  if layout.isPositional place then positional text decimal.exponent place
  else scientific text place

/-- A number in a layout. -/
def write (layout : Layout) : Binary64 → String
  | .finite negative significand exponent =>
    let text :=
      if significand == 0 then "0.0"
      else layout.writeDigits (shortest layout.tie significand exponent)
    if negative then "-" ++ text else text
  | .infinite negative => if negative then layout.negativeInfinity else layout.infinity
  | .undefined => layout.undefined

end Layout

end WorkingCopies.Decimal
