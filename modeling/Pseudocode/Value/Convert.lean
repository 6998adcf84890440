import Pseudocode.Fault
import Pseudocode.Text.Blank

/-! Reading values from text, and bringing values to the type of a variable. -/

namespace Pseudocode

/-- Why a text does not spell a value. -/
inductive Misspelling where
  | notInteger (text : String)
  | integerOutOfRange (text : String)
  | notNumber (text : String)
  | notBoolean (text : String)
deriving DecidableEq

/-- The words for a text that does not spell a value. -/
def Misspelling.message : Misspelling → String
  | .notInteger text => "not an integer: " ++ quoted text
  | .integerOutOfRange text => "integer out of range: " ++ quoted text
  | .notNumber text => "not a number: " ++ quoted text
  | .notBoolean text => "not a boolean: " ++ quoted text

/-- Whether a whole number fits in 32 bits with a sign. -/
def fitsInt32 (n : Int) : Bool :=
  -2147483648 ≤ n && n ≤ 2147483647

/-- Read a whole number of 32 bits: a sign or none, and ASCII digits, with blanks around them.
Digits are read here, and in arithmetic on texts, however many there are: a limit that a host may
set on the length of numerals is not part of this. -/
def readInteger (text : String) : Except Misspelling Int :=
  let (negative, digits) := splitSign (trim text.toList)
  if digits.isEmpty || !digits.all Char.isDigit then .error (.notInteger text)
  -- Digits are looked at after blanks and sign are gone, and there has to be one.
  else
    let size : Int := Nat.ofDigitChars 10 digits 0
    let n := if negative then -size else size
    -- The bounds are those of the number with its sign, so they are not symmetric.
    if fitsInt32 n then .ok n else .error (.integerOutOfRange text)

/-- Read a decimal number, with blanks around it. -/
def readFloat (text : String) : Except Misspelling Double :=
  match Decimal.read? (trim text.toList) with
  | some d => .ok d.toDouble
  | none => .error (.notNumber text)

/-- The capital form of a letter, for telling truth words apart. Of the letters outside ASCII only
the long s has a capital that occurs in one of the words. -/
def capital (c : Char) : Char :=
  if c == 'ſ' then 'S' else c.toUpper

/-- The truth value that a word spells, in any mix of cases. -/
def truthWord? (word : List Char) : Option Bool :=
  let capitals := word.map capital
  if capitals == "TRUE".toList then some true
  else if capitals == "FALSE".toList then some false
  else none

/-- Read a truth value, with blanks around it. -/
def readBoolean (text : String) : Except Misspelling Bool :=
  match truthWord? (trim text.toList) with
  | some b => .ok b
  | none => .error (.notBoolean text)

/-- The counterpart of a value in a type, where there is one: texts are read, a character widens to
a text and an integer to a float. No value stays no value. -/
def Value.convert? : VarType → Value → Option Value
  -- This comes before the types, since a variable of any type may be without a value.
  | _, .absent => some .absent
  | .int, .integer n => some (.integer n)
  | .int, .text s => (readInteger s).toOption.map .ofInt
  | .float, .float x => some (.float x)
  -- An integer is a double exactly; the rounding is in the step to single precision.
  | .float, .integer n => Value.ofDouble? (Exact.ofInt n.toInt).toDouble
  -- A number beyond single precision is no value, although its text spells a number.
  | .float, .text s => (readFloat s).toOption.bind Value.ofDouble?
  | .bool, .boolean b => some (.boolean b)
  | .bool, .text s => (readBoolean s).toOption.map .boolean
  | .char, .character c => some (.character c)
  | .char, .text s =>
    -- Blanks are characters here, so that none of them is dropped.
    match s.toList with
    | [c] => some (.character c)
    | _ => none
  | .string, .text s => some (.text s)
  | .string, .character c => some (.text (String.singleton c))
  | _, _ => none

/-- Bring an initial value to the type of its variable. -/
def Value.convert (target : VarType) (value : Value) : Except Fault Value :=
  match value.convert? target with
  | some converted => .ok converted
  | none => .error (.invalidConversion (.value value target))

/-- Read one input line as a value of the type of a variable. -/
def readInput (target : VarType) (line : String) : Except Fault Value :=
  -- Input for a text and for a character is taken as it is, blanks and all.
  let read? : Option Value :=
    match target with
    | .string => some (.text line)
    | .char =>
      match line.toList with
      | [c] => some (.character c)
      | _ => none
    | .int => (readInteger line).toOption.map .ofInt
    | .float => (readFloat line).toOption.bind Value.ofDouble?
    | .bool => (readBoolean line).toOption.map .boolean
  match read? with
  | some value => .ok value
  | none =>
    .error (.invalidConversion
      -- The words differ for a character, since any line of another length is wrong.
      (if target = .char then .notOneChar line else .line line target))

end Pseudocode
