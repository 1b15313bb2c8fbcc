/-!
# Binary floating point numbers and their decimal text

A finite number is `mantissa * 2 ^ exponent` with a mantissa below `2 ^ 53` and an exponent of at
least `-1074`.  Reading a decimal rounds to the nearest number, a tie to the even mantissa; writing
finds the fewest decimal digits that are read back as the same number, the nearest such digits, and
of two equally near ones those further from zero.  All arithmetic is exact.
-/

namespace TypeBridge.Text

/-- A number with a 53 bit mantissa. -/
inductive Binary64 where
  | notANumber
  | infinite (negative : Bool)
  | finite (negative : Bool) (mantissa : Nat) (exponent : Int)
  deriving DecidableEq, Repr

namespace Binary64

def minExponent : Int := -1074

def maxExponent : Int := 971

/-- Mantissas are below `2 ^ 53`. -/
def mantissaBound : Nat := 9007199254740992

/-- The quotient rounded to the nearest number, a tie to the even one. -/
def divideToEven (numerator denominator : Nat) : Nat :=
  let quotient := numerator / denominator
  let rest := numerator % denominator
  if rest * 2 < denominator then quotient
  else if denominator < rest * 2 then quotient + 1
  else quotient + quotient % 2

/-- The quotient rounded to the nearest number, a tie upwards. -/
def divideUpwards (numerator denominator : Nat) : Nat :=
  (2 * numerator + denominator) / (2 * denominator)

/-- `numerator / denominator / base ^ power`, rounded by a division. -/
def scaleDown (divide : Nat → Nat → Nat) (base numerator denominator : Nat) (power : Int) : Nat :=
  if 0 ≤ power then divide numerator (denominator * base.pow power.toNat)
  else divide (numerator * base.pow (-power).toNat) denominator

/-- The number nearest to a positive fraction, or none beyond the greatest one. -/
def ofFraction (negative : Bool) (numerator denominator : Nat) : Option Binary64 :=
  let guess : Int := numerator.log2 - denominator.log2 - 53
  let scaled := scaleDown divideToEven 2 numerator denominator
  let exact := max minExponent (if mantissaBound ≤ scaled guess then guess + 1 else guess)
  let mantissa := scaled exact
  let (mantissa, exponent) :=
    if mantissa = mantissaBound then (mantissa / 2, exact + 1) else (mantissa, exact)
  if maxExponent < exponent then none else some (.finite negative mantissa exponent)

/-- The number nearest to `digits * 10 ^ power`, or none beyond the greatest one. -/
def ofDecimal (negative : Bool) (digits : Nat) (power : Int) : Option Binary64 :=
  let size : Int := (Nat.toDigits 10 digits).length + power
  if digits = 0 ∨ size < -400 then some (.finite negative 0 minExponent)
  else if 400 < size then none
  else if 0 ≤ power then ofFraction negative (digits * Nat.pow 10 power.toNat) 1
  else ofFraction negative digits (Nat.pow 10 (-power).toNat)

/-- Fewest decimal digits for `mantissa * 2 ^ exponent`: a digit string `d` and a power `p` such
that `d * 10 ^ p` is read back, trying more and more digits. -/
def shortest (mantissa : Nat) (exponent : Int) : Nat × Int :=
  let numerator := if 0 ≤ exponent then mantissa * Nat.pow 2 exponent.toNat else mantissa
  let denominator := if 0 ≤ exponent then 1 else Nat.pow 2 (-exponent).toNat
  let fits (digits : Nat) (power : Int) : Bool :=
    ofDecimal false digits power == some (.finite false mantissa exponent)
  let magnitude : Int :=
    if denominator ≤ numerator then (Nat.toDigits 10 (numerator / denominator)).length
    else 1 - (Nat.toDigits 10 (denominator / numerator)).length
  let candidate (count : Nat) : Option (Nat × Int) :=
    let power := magnitude - count
    let near := scaleDown divideUpwards 10 numerator denominator power
    [near, near - 1, near + 1].findSome? fun digits =>
      if digits ≠ 0 ∧ fits digits power then some (digits, power) else none
  (((List.range 19).findSome? candidate).getD (0, 0))

/-- `digits * 10 ^ power` in positional notation. -/
def positional (digits : List Char) (power : Int) : List Char :=
  if 0 ≤ power then digits ++ List.replicate power.toNat '0'
  else
    let places := (-power).toNat
    let padded := List.replicate (places + 1 - digits.length) '0' ++ digits
    let whole := padded.take (padded.length - places)
    whole ++ '.' :: padded.drop (padded.length - places)

/-- Fewest digits, never with an exponent, and no fraction for a whole number. -/
def text : Binary64 → String
  | notANumber => "NaN"
  | infinite negative => if negative then "-inf" else "inf"
  | finite negative mantissa exponent =>
    let sign := if negative then "-" else ""
    if mantissa = 0 then sign ++ "0"
    else
      let (digits, power) := shortest mantissa exponent
      sign ++ String.ofList (positional (Nat.toDigits 10 digits) power)

end Binary64

end TypeBridge.Text
