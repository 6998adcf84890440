import Pseudocode.Numeric.Binary

/-! The values that expressions produce, and the types that variables are declared with. -/

namespace Pseudocode

/-- The kinds of value. -/
inductive Kind where
  | integer
  | float
  | boolean
  | character
  | text
  | absent
deriving DecidableEq, Repr

/-- The name of a kind in messages. -/
def Kind.name : Kind → String
  | .integer => "Integer"
  | .float => "Float"
  | .boolean => "Boolean"
  | .character => "Character"
  | .text => "Text"
  | .absent => "Absent"

/-- The kind with the given name. -/
def Kind.ofName? : String → Option Kind
  | "Integer" => some .integer
  | "Float" => some .float
  | "Boolean" => some .boolean
  | "Character" => some .character
  | "Text" => some .text
  | "Absent" => some .absent
  | _ => none

/-- A value. Integers have 32 bits, floats are finite and have 32 bits, and a variable that has not
been given a value holds the absent one. -/
inductive Value where
  | integer (n : Int32)
  | float (x : Single)
  | boolean (b : Bool)
  | character (c : Char)
  | text (s : String)
  | absent
deriving DecidableEq

namespace Value

/-- The kind of a value. -/
def kind : Value → Kind
  | .integer _ => .integer
  | .float _ => .float
  | .boolean _ => .boolean
  | .character _ => .character
  | .text _ => .text
  | .absent => .absent

/-- Whether a value is a number. -/
def isNumeric : Value → Bool
  | .integer _ | .float _ => true
  | _ => false

/-- Whether there is no value. -/
def isAbsent : Value → Bool
  | .absent => true
  | _ => false

/-- The absent value is the only one that is not there. -/
theorem isAbsent_iff {a : Value} : a.isAbsent = true ↔ a = .absent := by
  cases a <;> simp [isAbsent]

/-- A whole number as a value, reduced to 32 bits. -/
def ofInt (n : Int) : Value :=
  .integer (Int32.ofInt n)

/-- A 64-bit number as a value, rounded to 32 bits, if it is finite there. -/
def ofDouble? (x : Double) : Option Value :=
  -- A number beyond the range of single precision is no value.
  x.toSingle?.map .float

/-- Whether two values are equal: they have one kind, and the same content. The two zeros of floats
are equal. -/
def same : Value → Value → Bool
  -- Comparing the numbers makes the two zeros one, as comparing their parts would not.
  | .float x, .float y => x.order y == .eq
  | a, b => a == b

end Value

/-- The types of variables. -/
inductive VarType where
  | int
  | float
  | bool
  | char
  | string
deriving DecidableEq, Repr

namespace VarType

/-- The word that names a type in a program. -/
def name : VarType → String
  | .int => "INT"
  | .float => "FLOAT"
  | .bool => "BOOL"
  | .char => "CHAR"
  | .string => "STRING"

/-- The type with the given name. -/
def ofName? : String → Option VarType
  | "INT" => some .int
  | "FLOAT" => some .float
  | "BOOL" => some .bool
  | "CHAR" => some .char
  | "STRING" => some .string
  | _ => none

/-- The kind of value that a variable of the type holds. -/
def kind : VarType → Kind
  | .int => .integer
  | .float => .float
  | .bool => .boolean
  | .char => .character
  | .string => .text

/-- Every type is found under its own name. -/
theorem ofName?_name (type : VarType) : ofName? type.name = some type := by
  -- There are five types.
  cases type <;> rfl

end VarType

/-- Every kind is found under its own name. -/
theorem Kind.ofName?_name (kind : Kind) : ofName? kind.name = some kind := by
  -- There are six kinds.
  cases kind <;> rfl

end Pseudocode
