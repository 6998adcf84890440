import Pseudocode.Syntax.Label
import Pseudocode.Syntax.Node

/-! The small parts of programs: what a literal holds, what a variable is declared as, and what is
given a value. A tree that does not come from source text may have a node of another kind in the
place of each of them. -/

namespace Pseudocode

/-- What is wrong with a place of a tree, for a run that comes to it. -/
inductive Defect where
  /-- A node that is no statement stands in the place of one. -/
  | notStatement (node : Node)
  /-- A node that is no expression stands in the place of one. -/
  | notExpression (node : Node)
  /-- A node has not got what its place needs. -/
  | malformed (node : Node)
  /-- Compound data, which calls no variable, stands in the place of a label. -/
  | noLabel (data : Json)

/-- The node that a defect is about. -/
def Defect.node : Defect → Node
  | .notStatement node | .notExpression node | .malformed node => node
  -- The data is shown as the identifier that it cannot be.
  | .noLabel data => .ident data

/-- What a literal holds and an expression gives: a value, or a node that is none and that no
operator can take. -/
inductive Datum where
  | value (v : Value)
  | stray (node : Node)

namespace Datum

/-- The datum that a node is as the content of a literal. -/
def ofNode : Node → Datum
  | .value v => .value v
  | node => .stray node

/-- A datum as a node. -/
def toNode : Datum → Node
  | .value v => .value v
  | .stray node => node

/-- A datum in a trace. -/
def describe : Datum → String
  | .value v => v.describe
  | .stray node => node.describe

/-- What a datum gives a variable at its declaration. The null node gives it nothing. -/
def asInitial : Datum → Option Datum
  -- Only a missing content counts as nothing: the absent value is a value.
  | .stray .null => none
  | datum => some datum

end Datum

/-- What a variable is declared as: a type, or a node that is none. -/
inductive Typing where
  | known (type : VarType)
  | stray (node : Node)

namespace Typing

/-- What a node stands for in the place of a type. -/
def ofNode : Node → Typing
  | .varType type => .known type
  | node => .stray node

/-- The node that stands in the place of a type. -/
def toNode : Typing → Node
  | .known type => .varType type
  | .stray node => node

/-- What a variable is declared as, in a trace. -/
def describe : Typing → String
  | .known type => type.name
  | .stray node => node.describe

end Typing

/-- What is declared, assigned or scanned: a variable by its label, or nothing that could be. -/
inductive Target where
  | named (label : Label)
  | stray (defect : Defect)

namespace Target

/-- The target that a name in source text is. -/
def ofName (spelling : String) : Target :=
  .named (.name spelling)

/-- The target that JSON data is. -/
def ofJson (data : Json) : Target :=
  match Label.ofJson? data with
  | some label => .named label
  | none => .stray (.noLabel data)

/-- A target as JSON data. -/
def toJson : Target → Json
  | .named label => label.toJson
  | .stray (.noLabel data) => data
  -- The other defects do not arise from a label, and leave nothing to write.
  | .stray _ => .null

end Target

end Pseudocode
