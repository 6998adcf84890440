import Pseudocode.Numeric.Decimal
import Pseudocode.Text.Blank
import Pseudocode.Text.Digit

/-! Lenient numerals, as number texts in an interchanged tree may be written. -/

namespace Pseudocode

/-- Drop the underscores that stand between two digits. Any other underscore stays. -/
def dropSeparators : List Char → List Char
  -- The digit after the underscore is kept for what follows, as it may stand before another one.
  | a :: '_' :: b :: rest =>
    if a.isDigit && b.isDigit then a :: dropSeparators (b :: rest)
    else a :: '_' :: dropSeparators (b :: rest)
  | a :: rest => a :: dropSeparators rest
  | [] => []
termination_by text => text.length

/-- The characters that may surround a numeral: the blanks other than the information separators. -/
def isNumeralBlank (c : Char) : Bool :=
  isBlank c && !(28 ≤ c.toNat && c.toNat ≤ 31)

/-- A numeral in plain form: without outer blanks, with ASCII digits, and without the underscores
that group them. -/
def plainNumeral (text : List Char) : List Char :=
  -- The end is trimmed as the front of the reverse.
  let trimmed := (text.dropWhile isNumeralBlank).reverse.dropWhile isNumeralBlank |>.reverse
  dropSeparators (unifyDigits trimmed)

/-- Read a lenient whole number. -/
def readLenientInt? (text : List Char) : Option Int :=
  let (negative, digits) := splitSign (plainNumeral text)
  -- A sign alone is no number.
  if !digits.isEmpty && digits.all Char.isDigit then
    let size : Int := Nat.ofDigitChars 10 digits 0
    some (if negative then -size else size)
  else none

/-- Read a lenient decimal number, or one of the words for what is not a finite number. -/
def readLenientDouble? (text : List Char) : Option Double :=
  let plain := plainNumeral text
  let (negative, unsigned) := splitSign plain
  let word := String.ofList (unsigned.map Char.toLower)
  -- These words are told apart without regard to case.
  if word == "inf" || word == "infinity" then some (.infinite negative)
  else if word == "nan" then some .nan
  else (Decimal.read? plain).map Decimal.toDouble

end Pseudocode
