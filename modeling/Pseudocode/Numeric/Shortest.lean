import Pseudocode.Numeric.Decimal

/-! The text of a 64-bit number: the fewest digits that read back as the same number. -/

namespace Pseudocode

/-- The decimals next to a number on the grid of the given number of significant digits, the nearer
one first. Of two equally near ones the even one is first. -/
def Exact.neighbours (x : Exact) (count : Nat) : List Decimal :=
  let exp := x.log10 - (count - 1 : Nat)
  let (num, den) := x.decimalRatio exp
  let nearest := roundDiv num den
  -- The other neighbour lies on the other side of the number.
  let other := if nearest = num / den then nearest + 1 else nearest - 1
  [⟨x.negative, nearest, exp⟩, ⟨x.negative, other, exp⟩]

/-- Find the first decimal that reads back as `x`, going through numbers of digits from `count` on
for `more` steps. -/
def Binary.shortestFrom (x : Binary .double) (count : Nat) : Nat → Option Decimal
  -- The digits are used up.
  | 0 => none
  | more + 1 =>
    -- The nearer neighbour is tried first, and taken if it reads back.
    match (x.toExact.neighbours count).find? (·.toDouble = .finite x) with
    | some found => some found
    | none => x.shortestFrom (count + 1) more

/-- The decimal with the fewest significant digits that reads back as `x`, and of those the
nearest. Seventeen digits always do. -/
def Binary.shortest (x : Binary .double) : Decimal :=
  -- Zero has no digits that could be counted.
  if x.mant = 0 then ⟨x.negative, 0, 0⟩
  else (x.shortestFrom 1 17).getD (x.toExact.toDecimal 17)

/-- Write a decimal with its point after the first digit and an exponent of at least two digits. -/
def Decimal.scientific (d : Decimal) : List Char :=
  let digits := decimalDigits d.digits
  -- The point moves behind the first digit, past all the others.
  let exponent := d.exp + digits.length - 1
  let fraction := Decimal.trimZeros (digits.drop 1)
  let size := decimalDigits exponent.natAbs
  -- The exponent has a sign and two digits at least.
  digits.take 1 ++ (if fraction.isEmpty then [] else '.' :: fraction) ++
    'e' :: (if exponent < 0 then '-' else '+') ::
      (List.replicate (2 - size.length) '0' ++ size)

/-- The text of a 64-bit number. Decimal exponents from -4 to 15 are written in fixed point, with
at least one digit after the point. -/
def Double.text : Double → String
  | .nan => "nan"
  | .infinite negative => if negative then "-inf" else "inf"
  | .finite x =>
    let d := x.shortest
    -- This is the decimal exponent of the first digit.
    let exponent := d.exp + (decimalDigits d.digits).length - 1
    if d.digits = 0 ∨ (-4 ≤ exponent ∧ exponent < 16) then d.fixed
    else String.ofList ((if d.negative then ['-'] else []) ++ d.scientific)

end Pseudocode
