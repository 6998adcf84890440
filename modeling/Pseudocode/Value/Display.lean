import Pseudocode.Numeric.Shortest
import Pseudocode.Text.Quoted
import Pseudocode.Value.Basic

/-! How values are shown: to the reader of a program's output, and in messages and traces. -/

namespace Pseudocode

/-- The number of digits after the point that a displayed float has at most. -/
def displayPlaces : Nat := 16

/-- The number of significant digits that tell any two 32-bit numbers apart. -/
def displayDigits : Nat := 9

/-- Whether a decimal reads back as the 32-bit number `x`, up to the sign of zero. -/
def Single.readsBack (x : Single) (d : Decimal) : Bool :=
  -- The decimal goes by way of a double, as a displayed number does when it is read again.
  match d.toDouble.toSingle? with
  | some y => x.order y == .eq
  | none => false

/-- The decimal that a float is displayed as, before the number of places is limited: the first
one, by number of digits, that is nearest to `x` and reads back as `x`. -/
def Single.settled (x : Single) : Decimal :=
  -- The candidates have one digit, then two, and so on.
  let candidates := (List.range displayDigits).map fun n => x.toExact.toDecimal (n + 1)
  -- If none of them reads back, the longest is taken.
  (candidates.find? x.readsBack).getD (x.toExact.toDecimal displayDigits)

/-- A float in fixed point, as it is displayed. -/
def Single.display (x : Single) : String :=
  -- A fraction that goes on beyond the last place is cut and rounded there.
  (x.settled.limitPlaces displayPlaces).fixed

/-- The words for the two truth values. -/
def booleanText (b : Bool) : String :=
  if b then "TRUE" else "FALSE"

namespace Value

/-- The text that displaying a value writes. -/
def display : Value → String
  | .integer n => integerText n.toInt
  | .float x => x.display
  | .boolean b => booleanText b
  | .character c => String.singleton c
  | .text s => s
  -- A variable without a value shows as nothing at all.
  | .absent => ""

/-- A value in a message or a trace: its kind with its content. -/
def describe : Value → String
  | .integer n => "Integer(" ++ integerText n.toInt ++ ")"
  -- A message shows the number as a double, which can take more digits.
  | .float x => "Float(" ++ x.toDouble.text ++ ")"
  | .boolean b => "Boolean(" ++ (if b then "True" else "False") ++ ")"
  | .character c => "Character(" ++ quoted (String.singleton c) ++ ")"
  | .text s => "Text(" ++ quoted s ++ ")"
  | .absent => "Absent"

end Value

end Pseudocode
