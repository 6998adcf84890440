import Pseudocode.Numeric.Shortest
import Pseudocode.Text.Quoted

/-! JSON data, with whole numbers kept apart from fractions and members kept in order. -/

namespace Pseudocode

/-- JSON data. -/
inductive Json where
  | null
  | bool (b : Bool)
  -- Whole numbers have no bound, so they are no doubles.
  | int (n : Int)
  | float (x : Double)
  | str (s : String)
  | arr (items : List Json)
  | obj (members : List (String × Json))

namespace Json

/-- Whether JSON data counts as true: all but the false, zero and empty data does. -/
def isTruthy : Json → Bool
  | .null => false
  | .bool b => b
  | .int n => n != 0
  -- A number that is not finite, or not a number at all, is not zero.
  | .float (.finite x) => x.mant != 0
  | .float _ => true
  | .str s => s != ""
  | .arr items => !items.isEmpty
  | .obj members => !members.isEmpty

mutual

/-- JSON data in a message, with its texts quoted. -/
def describe : Json → String
  -- The words of a message are not those of JSON.
  | .null => "None"
  | .bool b => if b then "True" else "False"
  | .int n => integerText n
  | .float x => x.text
  | .str s => quoted s
  | .arr items => "[" ++ ", ".intercalate (describeItems items) ++ "]"
  | .obj members => "\x7b" ++ ", ".intercalate (describeMembers members) ++ "\x7d"

/-- The items of an array in a message. -/
def describeItems : List Json → List String
  | [] => []
  | item :: rest => item.describe :: describeItems rest

/-- The members of an object in a message. -/
def describeMembers : List (String × Json) → List String
  | [] => []
  | (key, value) :: rest => (quoted key ++ ": " ++ value.describe) :: describeMembers rest

end

/-- JSON data as text: a text stands for itself, and anything else is described. -/
def toText : Json → String
  | .str s => s
  | other => other.describe

end Json

end Pseudocode
