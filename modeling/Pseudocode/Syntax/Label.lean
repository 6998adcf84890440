import Pseudocode.Json.Basic

/-! What variables are called by, and when two labels call the same variable. -/

namespace Pseudocode

/-- What a variable is called by. Source text has only names; an interchanged tree may have other
simple data in their place. -/
inductive Label where
  | name (spelling : String)
  | null
  | bool (b : Bool)
  | int (n : Int)
  | float (x : Double)
deriving DecidableEq

/-- What labels are told apart by. Numbers are told apart by value, and the truth values count as
one and zero. -/
inductive LabelKey where
  | name (spelling : String)
  | null
  | whole (n : Int)
  | fraction (x : Double)
deriving DecidableEq

namespace Label

/-- What a label is told apart by. -/
def key : Label → LabelKey
  | .name spelling => .name spelling
  | .null => .null
  | .bool b => .whole (if b then 1 else 0)
  | .int n => .whole n
  -- A fraction without a fractional part is the whole number it equals.
  | .float x =>
    match x.whole? with
    | some n => .whole n
    | none => .fraction x

/-- Whether two labels call the same variable. -/
def same (a b : Label) : Bool :=
  a.key == b.key

/-- The label that JSON data is. Compound data is none. -/
def ofJson? : Json → Option Label
  | .str s => some (.name s)
  | .null => some .null
  | .bool b => some (.bool b)
  | .int n => some (.int n)
  | .float x => some (.float x)
  | .arr _ | .obj _ => none

/-- A label as JSON data. -/
def toJson : Label → Json
  | .name spelling => .str spelling
  | .null => .null
  | .bool b => .bool b
  | .int n => .int n
  | .float x => .float x

/-- The text of a label in messages and traces. -/
def text (label : Label) : String :=
  -- A name is shown without quotes, and other data in the words of a message.
  label.toJson.toText

/-- A label that is written is read back. -/
theorem ofJson?_toJson (label : Label) : ofJson? label.toJson = some label := by
  -- Each kind of label has its own kind of data.
  cases label <;> rfl

/-- Names call the same variable only when they are spelled alike. -/
theorem same_name (a b : String) : same (.name a) (.name b) = decide (a = b) := by
  -- The spelling is the whole key of a name.
  simp [same, key, BEq.beq]

end Label

end Pseudocode
