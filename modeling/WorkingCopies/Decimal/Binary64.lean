/-!
# Binary floating point numbers

Numbers with 53 binary digits, as exact values. A finite number is a significand times a power of
two; a fraction is rounded to the nearest such number, and a fraction halfway between two goes to
the one with the even significand.
-/

namespace WorkingCopies.Decimal

/-- A number of the 64 bit format. A finite number is `significand * 2 ^ exponent`, with a
significand of 53 binary digits unless the exponent is the least one. -/
inductive Binary64 where
  | finite (negative : Bool) (significand : Nat) (exponent : Int)
  | infinite (negative : Bool)
  | undefined
  deriving Repr, DecidableEq, Inhabited

namespace Binary64

/-- The least exponent. -/
def leastExponent : Int := -1074

/-- The greatest exponent. -/
def greatestExponent : Int := 971

/-- A fraction rounded to the nearest natural number, halves to the even one. -/
def roundHalfEven (numerator denominator : Nat) : Nat :=
  let whole := numerator / denominator
  let rest := 2 * (numerator % denominator)
  if rest > denominator || (rest == denominator && whole % 2 == 1) then whole + 1 else whole

/-- A number times a power of a base. A negative exponent counts as zero. -/
def scale (base number : Nat) (exponent : Int) : Nat := number * Nat.pow base exponent.toNat

/-- The least number with more than 53 binary digits. -/
def significandLimit : Nat := Nat.pow 2 53

/-- The exponent for a positive fraction: its significand has 53 digits, or the exponent is the
least one. -/
def exponentOf (numerator denominator : Nat) : Int :=
  let low : Int := (numerator.log2 : Int) - denominator.log2 - 53
  let isLow := scale 2 numerator (-low) < scale 2 denominator low * significandLimit
  max leastExponent (if isLow then low else low + 1)

/-- The number nearest to a fraction with a positive denominator. -/
def ofFraction (negative : Bool) (numerator denominator : Nat) : Binary64 :=
  if numerator == 0 then finite negative 0 leastExponent
  else
    let exponent := exponentOf numerator denominator
    let significand :=
      roundHalfEven (scale 2 numerator (-exponent)) (scale 2 denominator exponent)
    let (significand, exponent) :=
      if significand == significandLimit then (significandLimit / 2, exponent + 1)
      else (significand, exponent)
    if exponent > greatestExponent then infinite negative else finite negative significand exponent

/-- The number nearest to `digits * 10 ^ exponent`. Where the size alone decides, nothing is
computed: numbers of more than 310 places are infinite and those below `10 ^ -330` are zero. -/
def ofDecimal (negative : Bool) (digits : Nat) (exponent : Int) : Binary64 :=
  let places : Int := (Nat.toDigits 10 digits).length + exponent
  if digits == 0 || places < -330 then finite negative 0 leastExponent
  else if places > 310 then infinite negative
  else ofFraction negative (scale 10 digits exponent) (scale 10 1 (-exponent))

/-- Whether a number is finite. -/
def isFinite : Binary64 → Bool
  | finite .. => true
  | _ => false

/-- Equality of what two numbers stand for: the two zeros are equal, and so are all undefined
numbers. -/
def sameValue : Binary64 → Binary64 → Bool
  | finite negative significand exponent, finite negative' significand' exponent' =>
    significand == significand' && exponent == exponent' &&
      (negative == negative' || significand == 0)
  | infinite negative, infinite negative' => negative == negative'
  | undefined, undefined => true
  | _, _ => false

end Binary64

end WorkingCopies.Decimal
