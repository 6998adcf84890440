import Pseudocode.Numeric.Binary

/-! Decimal numbers: reading them, rounding to them, and writing them in fixed point. -/

namespace Pseudocode

/-- The decimal digits of a natural number, without leading zeros. -/
def decimalDigits (n : Nat) : List Char :=
  Nat.toDigits 10 n

/-- A whole number in decimal, with a minus sign if it is negative. -/
def integerText (n : Int) : String :=
  -- The sign is not part of the digits, and zero has none.
  String.ofList (if n < 0 then '-' :: decimalDigits n.natAbs else decimalDigits n.natAbs)

/-- A signed decimal number with magnitude `digits * 10 ^ exp`. Zero has a sign. -/
structure Decimal where
  /-- Whether the number has a minus sign. -/
  negative : Bool
  /-- The significant digits, as a whole number. -/
  digits : Nat
  /-- The power of ten of the last digit. -/
  exp : Int
deriving DecidableEq

/-- Split off a leading sign; its absence counts as a plus sign. -/
def splitSign : List Char → Bool × List Char
  | '-' :: rest => (true, rest)
  | '+' :: rest => (false, rest)
  | rest => (false, rest)

namespace Decimal

/-- Read the exponent part that may end a decimal numeral: nothing at all, or a letter `e` with a
signed whole number. -/
def readExponent? : List Char → Option Int
  | [] => some 0
  | e :: rest =>
    let (negative, digits) := splitSign rest
    -- A letter alone is no exponent, and neither is a letter with a sign.
    if (e == 'e' || e == 'E') && !digits.isEmpty && digits.all Char.isDigit then
      let size : Int := Nat.ofDigitChars 10 digits 0
      some (if negative then -size else size)
    else none

/-- Split off the digits after a decimal point, if there is a point. -/
def splitFraction : List Char → List Char × List Char
  | '.' :: rest => rest.span Char.isDigit
  | rest => ([], rest)

/-- Read a decimal numeral: a sign or none, digits around a decimal point of which at least one
must be there, and an exponent or none. -/
def read? (text : List Char) : Option Decimal :=
  let (negative, unsigned) := splitSign text
  let (whole, afterWhole) := unsigned.span Char.isDigit
  let (fraction, afterFraction) := splitFraction afterWhole
  if whole.isEmpty && fraction.isEmpty then none
  else
    (readExponent? afterFraction).map fun exponent =>
      { negative := negative
        digits := Nat.ofDigitChars 10 (whole ++ fraction) 0
        -- Each digit after the point takes one from the power of ten of the last digit.
        exp := exponent - fraction.length }

/-- The same number as an exact one. -/
def toExact (d : Decimal) : Exact where
  negative := d.negative
  -- The power of ten goes to one side or the other, by the sign of its exponent.
  num := d.digits * scale 10 d.exp
  den := scale 10 (-d.exp)
  exp := 0
  den_pos := scale_pos (by decide) _

/-- The nearest 64-bit number. Magnitudes far outside the format are settled by their number of
digits alone, so that a huge exponent costs nothing. -/
def toDouble (d : Decimal) : Double :=
  -- The magnitude is below `10 ^ top`, and it is at least a tenth of that.
  let top : Int := d.exp + (decimalDigits d.digits).length
  if d.digits = 0 ∨ top < Format.double.minExp then .finite (.zero .double d.negative)
  else if Format.double.maxExp + Format.double.precision < top then .infinite d.negative
  else d.toExact.toDouble

/-- Keep at most the given number of digits after the point, rounding a half to the even digit. -/
def limitPlaces (d : Decimal) (places : Nat) : Decimal :=
  -- A number that has no more places than that stays as it is.
  if d.exp < -(places : Int) then
    -- The digits beyond the last place are what the quotient rounds away.
    { d with digits := roundDiv d.digits (scale 10 (-d.exp - places)), exp := -(places : Int) }
  else d

/-- Drop the zeros at the end of a run of digits. -/
def trimZeros (digits : List Char) : List Char :=
  (digits.reverse.dropWhile (· == '0')).reverse

/-- The whole part and the fraction digits of a number in fixed point. The fraction has no zeros
at its end, and may be empty. -/
def fixedParts (d : Decimal) : List Char × List Char :=
  let num := d.digits * scale 10 d.exp
  let den := scale 10 (-d.exp)
  let fraction := decimalDigits (num % den)
  -- Zeros between the point and the first digit that is not zero are written too.
  let padding := List.replicate ((-d.exp).toNat - fraction.length) '0'
  (decimalDigits (num / den), trimZeros (padding ++ fraction))

/-- The number in fixed point: the sign, the whole part, a point, and at least one more digit. -/
def fixed (d : Decimal) : String :=
  let (whole, fraction) := d.fixedParts
  -- A whole number has a zero after the point.
  let shown := if fraction.isEmpty then ['0'] else fraction
  String.ofList ((if d.negative then ['-'] else []) ++ whole ++ '.' :: shown)

end Decimal

namespace Exact

/-- The exponent of the greatest power of ten that is not above the magnitude of a number that is
not zero. -/
def log10 (x : Exact) : Int :=
  let num := x.num * scale 2 x.exp
  let den := x.den * scale 2 (-x.exp)
  let guess : Int := ((decimalDigits num).length : Int) - (decimalDigits den).length
  -- The two lengths alone can be one too high, because each drops a fraction.
  if num * scale 10 (-guess) < den * scale 10 guess then guess - 1 else guess

/-- The magnitude over `10 ^ exp`, as a numerator and a denominator. -/
def decimalRatio (x : Exact) (exp : Int) : Nat × Nat :=
  -- Both powers, of two and of ten, go to the side where their exponents are positive.
  (x.num * scale 2 x.exp * scale 10 (-exp), x.den * scale 2 (-x.exp) * scale 10 exp)

/-- The nearest decimal with the given number of significant digits, a half going to the even
digit. Zero stays zero. -/
def toDecimal (x : Exact) (count : Nat) : Decimal :=
  if x.num = 0 then ⟨x.negative, 0, 0⟩
  else
    -- The last of `count` digits stands this many places below the first.
    let exp := x.log10 - (count - 1 : Nat)
    let (num, den) := x.decimalRatio exp
    -- Rounding up to a power of ten leaves one digit more than was asked for.
    ⟨x.negative, roundDiv num den, exp⟩

end Exact

end Pseudocode
