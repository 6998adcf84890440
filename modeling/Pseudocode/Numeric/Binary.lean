import Pseudocode.Numeric.Rounding

/-! Binary floating-point numbers: exact results, and their rounding to a format. -/

namespace Pseudocode

/-- A binary floating-point format. -/
structure Format where
  /-- The number of bits of a significand. -/
  precision : Nat
  /-- The exponent of the finest last place. -/
  minExp : Int
  /-- The exponent of the coarsest last place. -/
  maxExp : Int
  /-- There is at least one exponent. -/
  ordered : minExp ≤ maxExp := by decide

/-- The 32-bit format. -/
def Format.single : Format where
  precision := 24
  minExp := -149
  maxExp := 104

/-- The 64-bit format. -/
def Format.double : Format where
  precision := 53
  minExp := -1074
  maxExp := 971

/-- A significand and an exponent form a number of the format: the significand fits, and it is
short only at the finest exponent, so each number has one form. -/
def Format.Holds (format : Format) (mant : Nat) (exp : Int) : Prop :=
  mant < Nat.pow 2 format.precision ∧ format.minExp ≤ exp ∧ exp ≤ format.maxExp ∧
    (exp = format.minExp ∨ Nat.pow 2 (format.precision - 1) ≤ mant)

/-- Whether two parts form a number of a format is decided by their bounds. -/
instance (format : Format) (mant : Nat) (exp : Int) : Decidable (format.Holds mant exp) :=
  inferInstanceAs (Decidable (_ ∧ _))

/-- A finite number of a format, with magnitude `mant * 2 ^ exp`. Zero has a sign. -/
structure Binary (format : Format) where
  /-- Whether the number has a minus sign. -/
  negative : Bool
  /-- The significand. -/
  mant : Nat
  /-- The exponent of the significand's last place. -/
  exp : Int
  /-- The two parts form a number of the format. -/
  holds : format.Holds mant exp
deriving DecidableEq

/-- A finite 32-bit number. -/
abbrev Single := Binary .single

/-- An exact signed number with magnitude `num / den * 2 ^ exp`, as an operation produces it before
it is rounded. Zero has a sign. -/
structure Exact where
  /-- Whether the number has a minus sign. -/
  negative : Bool
  /-- The numerator. -/
  num : Nat
  /-- The denominator. -/
  den : Nat
  /-- A power of two set apart from the quotient. -/
  exp : Int
  /-- The quotient is defined. -/
  den_pos : 0 < den

namespace Exact

/-- A whole number. -/
def ofInt (n : Int) : Exact where
  negative := n < 0
  num := n.natAbs
  den := 1
  exp := 0
  den_pos := by decide

/-- The exponent of the greatest power of two that is not above the magnitude. -/
def log2 (x : Exact) : Int :=
  let guess : Int := (x.num.log2 : Int) - (x.den.log2 : Int)
  -- The two logarithms alone can be one too high, because each drops a fraction.
  -- With both exponents cut off at zero, only one side is really scaled.
  let below := x.num * scale 2 (-guess) < x.den * scale 2 guess
  (if below then guess - 1 else guess) + x.exp

/-- The magnitude in units of `2 ^ exp`, rounded to the nearest whole number of them. -/
def units (x : Exact) (exp : Int) : Nat :=
  roundDiv (x.num * scale 2 (x.exp - exp)) (x.den * scale 2 (exp - x.exp))

end Exact

namespace Binary

variable {format : Format}

/-- The number with the given parts, if they form one. -/
def ofParts? (format : Format) (negative : Bool) (mant : Nat) (exp : Int) :
    Option (Binary format) :=
  -- The proof that the parts fit goes into the number.
  if holds : format.Holds mant exp then some ⟨negative, mant, exp, holds⟩ else none

/-- Zero, with either sign. -/
def zero (format : Format) (negative : Bool) : Binary format where
  negative := negative
  mant := 0
  exp := format.minExp
  -- Zero is short, and so stands at the finest exponent.
  holds := ⟨Nat.two_pow_pos _, Int.le_refl _, format.ordered, .inl rfl⟩

/-- The significand with its sign. -/
def signed (x : Binary format) : Int :=
  if x.negative then -(x.mant : Int) else x.mant

/-- The signed number of units of `2 ^ exp`, for an exponent that is not above the number's own. -/
def aligned (x : Binary format) (exp : Int) : Int :=
  -- At such an exponent the number of units is whole, so no factor is lost.
  x.signed * scale 2 (x.exp - exp)

/-- The whole number that is left when the fraction is cut off. -/
def truncate (x : Binary format) : Int :=
  -- One of the two scales is one: an exponent has one sign.
  let size : Int := (x.mant * scale 2 x.exp / scale 2 (-x.exp) : Nat)
  if x.negative then -size else size

/-- Whether the number has no fraction. -/
def isWhole (x : Binary format) : Bool :=
  -- The remainder is that of the division in `truncate`.
  x.mant * scale 2 x.exp % scale 2 (-x.exp) == 0

/-- The number itself, as an exact number. -/
def toExact (x : Binary format) : Exact where
  negative := x.negative
  num := x.mant
  den := 1
  exp := x.exp
  den_pos := by decide

/-- The number with the other sign. -/
def neg (x : Binary format) : Binary format :=
  { x with negative := !x.negative }

/-- The exact sum. A sum of zero has a minus sign only when both terms have one. -/
def add (x y : Binary format) : Exact :=
  -- At the lesser of the two exponents both terms are whole numbers of units.
  let exp := min x.exp y.exp
  let sum := x.aligned exp + y.aligned exp
  { negative := if sum = 0 then x.negative && y.negative else sum < 0
    num := sum.natAbs
    den := 1
    exp := exp
    den_pos := by decide }

/-- The exact difference. -/
def sub (x y : Binary format) : Exact :=
  -- Subtracting is adding the number of the other sign, also where zeros are concerned.
  x.add y.neg

/-- The exact product. -/
def mul (x y : Binary format) : Exact where
  negative := x.negative != y.negative
  num := x.mant * y.mant
  den := 1
  exp := x.exp + y.exp
  den_pos := by decide

/-- The exact quotient by a number that is not zero. -/
def div (x y : Binary format) (divisor : 0 < y.mant) : Exact where
  negative := x.negative != y.negative
  num := x.mant
  den := y.mant
  exp := x.exp - y.exp
  den_pos := divisor

/-- The order of two numbers by value. The two zeros are equal. -/
def order (x y : Binary format) : Ordering :=
  -- The units are the same for both, so that whole numbers are compared.
  let exp := min x.exp y.exp
  compare (x.aligned exp) (y.aligned exp)

end Binary

/-- The number of the format that is nearest to an exact one, or nothing when it is too large for
the format. Of two equally near numbers the one with the even significand is taken. -/
def Exact.round? (format : Format) (x : Exact) : Option (Binary format) :=
  if x.num = 0 then some (.zero format x.negative)
  else
    -- The last place is as fine as the format allows for this magnitude.
    let exp := max format.minExp (x.log2 - (format.precision - 1 : Nat))
    let mant := x.units exp
    -- Rounding up a significand of ones carries into the next exponent.
    if mant = Nat.pow 2 format.precision then
      Binary.ofParts? format x.negative (Nat.pow 2 (format.precision - 1)) (exp + 1)
    else Binary.ofParts? format x.negative mant exp

/-- A number above the finest exponent has a full significand, and so is not zero. -/
theorem Binary.mant_pos_of_ofParts? {format : Format} {negative : Bool} {mant : Nat} {exp : Int}
    {x : Binary format} (found : ofParts? format negative mant exp = some x)
    (coarse : format.minExp < exp) : 0 < x.mant := by
  unfold ofParts? at found
  split at found
  · rename_i holds
    cases found
    -- Only at the finest exponent may a significand be short.
    have full := holds.2.2.2.resolve_left (by omega)
    exact Nat.lt_of_lt_of_le (Nat.two_pow_pos _) full
  · cases found

/-- An integer that is not zero is not rounded to zero. -/
theorem Exact.mant_pos_of_ofInt {n : Int} {x : Single} (rounded : (ofInt n).round? .single = some x)
    (nonzero : n ≠ 0) : 0 < x.mant := by
  -- The magnitude is at least one, so that the last place is far above the finest one.
  have large : -1 ≤ (ofInt n).log2 := by
    have one : Nat.log2 1 = 0 := by decide
    simp only [log2, ofInt, one]
    split <;> omega
  have coarse : Format.single.minExp <
      max Format.single.minExp ((ofInt n).log2 - (Format.single.precision - 1 : Nat)) := by
    simp only [Format.single]
    omega
  have some : (ofInt n).num ≠ 0 := by simpa [ofInt] using nonzero
  rw [round?, if_neg some] at rounded
  -- With a carry or without one, the exponent stays above the finest one.
  dsimp only at rounded
  split at rounded
  · exact Binary.mant_pos_of_ofParts? rounded (by omega)
  · exact Binary.mant_pos_of_ofParts? rounded coarse

/-- A 64-bit number: finite, too large to be finite, or not a number at all. -/
inductive Double where
  | finite (x : Binary .double)
  | infinite (negative : Bool)
  | nan
deriving DecidableEq

/-- The 64-bit number nearest to an exact one. -/
def Exact.toDouble (x : Exact) : Double :=
  match x.round? .double with
  | some y => .finite y
  | none => .infinite x.negative

/-- The whole number that a 64-bit number is, if it is one. -/
def Double.whole? : Double → Option Int
  | .finite x => if x.isWhole then some x.truncate else none
  | .infinite _ | .nan => none

/-- The nearest finite 32-bit number, if there is one. -/
def Double.toSingle? : Double → Option Single
  | .finite x => x.toExact.round? .single
  | .infinite _ | .nan => none

/-- The same number in the 64-bit format, which holds every 32-bit number. -/
def Single.toDouble (x : Single) : Double :=
  x.toExact.toDouble

end Pseudocode
