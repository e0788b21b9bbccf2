import WorkingCopies.Decimal.Binary64

/-!
# Shortest decimals

The fewest decimal digits from which a binary number can be read back, and of the decimals with
that many digits the one nearest to the number. A number halfway between two of them is a tie,
which is settled by a rule given from outside.
-/

namespace WorkingCopies.Decimal

open Binary64 (scale)

/-- Where a number goes that lies halfway between two decimals. -/
inductive Tie where
  /-- To the one with the even last digit. -/
  | toEven
  /-- To the greater one. -/
  | up
  deriving Repr, DecidableEq

/-- A decimal number: `digits * 10 ^ exponent`. -/
structure Digits where
  digits : Nat
  exponent : Int
  deriving Repr, DecidableEq

/-- The number of decimal digits of a natural number. -/
def digitCount (n : Nat) : Nat := (Nat.toDigits 10 n).length

/-- The exponent of the first decimal digit of a positive fraction. -/
def leadingExponent (numerator denominator : Nat) : Int :=
  if numerator ≥ denominator then digitCount (numerator / denominator) - 1
  else
    let shift := digitCount denominator - digitCount numerator
    if scale 10 numerator shift ≥ denominator then -(shift : Int) else -(shift + 1 : Int)

/-- Everything that rounds to a positive number, in quarters of its last binary digit: the least
such value, the number itself and the greatest such value, and whether the two ends round to it. -/
structure Surroundings where
  least : Nat
  middle : Nat
  greatest : Nat
  withEnds : Bool
  deriving Repr

/-- What rounds to `significand * 2 ^ exponent`. Below a power of two the numbers lie closer. -/
def Surroundings.of (significand : Nat) (exponent : Int) : Surroundings where
  least :=
    4 * significand -
      (if 2 * significand == Binary64.significandLimit && exponent > Binary64.leastExponent then 1
      else 2)
  middle := 4 * significand
  greatest := 4 * significand + 2
  withEnds := significand % 2 == 0

/-- The nearest decimal with a given exponent that rounds to the number, if there is one. The
number is `middle * 2 ^ binary`, and its neighbours among those decimals are tried. -/
def nearest? (tie : Tie) (around : Surroundings) (binary exponent : Int) : Option Digits :=
  let factor := scale 10 (scale 2 1 binary) (-exponent)
  let unit := scale 10 (scale 2 1 (-binary)) exponent
  let middle := around.middle * factor
  let below := middle / unit
  let within (low high : Nat) : Bool := if around.withEnds then low ≤ high else low < high
  let belowFits := within (around.least * factor) (below * unit)
  let aboveFits := within ((below + 1) * unit) (around.greatest * factor)
  let twice := 2 * (middle % unit)
  let goUp := twice > unit || (twice == unit && (tie == .up || below % 2 == 1))
  if belowFits && aboveFits then some ⟨if goUp then below + 1 else below, exponent⟩
  else if belowFits then some ⟨below, exponent⟩
  else if aboveFits then some ⟨below + 1, exponent⟩
  else none

/-- Take zeros away at the end of a decimal, as many as there are and at most `fuel`. -/
def Digits.dropZeros : Nat → Digits → Digits
  | 0, decimal => decimal
  | fuel + 1, decimal =>
    if decimal.digits % 10 == 0 then dropZeros fuel ⟨decimal.digits / 10, decimal.exponent + 1⟩
    else decimal

/-- The shortest decimal for the positive number `significand * 2 ^ exponent`. Seventeen digits are
always enough. -/
def shortest (tie : Tie) (significand : Nat) (exponent : Int) : Digits :=
  let leading := leadingExponent (scale 2 significand exponent) (scale 2 1 (-exponent))
  let around := Surroundings.of significand exponent
  let found := (List.range 17).findSome? fun (count : Nat) =>
    nearest? tie around (exponent - 2) (leading - count)
  (found.getD ⟨significand, exponent⟩).dropZeros 17

end WorkingCopies.Decimal
