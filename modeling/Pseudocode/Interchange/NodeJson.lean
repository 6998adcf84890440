import Pseudocode.Numeric.Numeral
import Pseudocode.Syntax.Node

/-! Interchanged trees as JSON. -/

namespace Pseudocode

/-- Why JSON data does not describe a tree. -/
inductive TreeError where
  | missingKey (key : String)
  | notObject
  | unknownNode (tag : Json)
  | unknownType (name : Json)
  | unknownKind (name : Json)
  | notOneChar (text : String)
  | floatOutOfRange (x : Double)
  /-- A number is written in a way that cannot be read. -/
  | badNumeral
  /-- A number is too large to be held. -/
  | tooLarge
  /-- Data has the wrong shape for its place. -/
  | badShape

/-- Look up a member of an object. -/
def lookupMember {α : Type} (key : String) (members : List (String × α)) : Option α :=
  -- A key that occurs twice has been reduced to its last data by the reader.
  (members.find? (·.1 == key)).map (·.2)

/-- The whole number that JSON data stands for. A fraction is cut off. -/
def Json.toInt : Json → Except TreeError Int
  | .bool b => .ok (if b then 1 else 0)
  | .int n => .ok n
  | .float (.finite x) => .ok x.truncate
  -- What is not finite has no whole part: the two ways to fail are told apart.
  | .float (.infinite _) => .error .tooLarge
  | .float .nan => .error .badNumeral
  | .str s =>
    -- Blanks around the digits and single underscores between them do no harm.
    match readLenientInt? s.toList with
    | some n => .ok n
    | none => .error .badNumeral
  | .null | .arr _ | .obj _ => .error .badShape

/-- The 64-bit number that JSON data stands for. -/
def Json.toDouble : Json → Except TreeError Double
  | .bool b => .ok (Exact.ofInt (if b then 1 else 0)).toDouble
  | .int n =>
    -- A whole number is rounded to the nearest double, unless that one is infinite.
    match (Exact.ofInt n).toDouble with
    | .finite x => .ok (.finite x)
    | _ => .error .tooLarge
  | .float x => .ok x
  | .str s =>
    match readLenientDouble? s.toList with
    | some x => .ok x
    | none => .error .badNumeral
  | .null | .arr _ | .obj _ => .error .badShape

namespace Value

/-- The value of a kind that JSON data describes. -/
def ofData (kind : Kind) (data : Json) : Except TreeError Value :=
  match kind with
  -- Whole numbers wrap around to 32 bits.
  | .integer => data.toInt.map .ofInt
  | .float => do
    let x ← data.toDouble
    -- Numbers are narrowed to single precision, which may leave the range.
    match Value.ofDouble? x with
    | some value => .ok value
    | none => .error (.floatOutOfRange x)
  -- Any data counts as a truth value.
  | .boolean => .ok (.boolean data.isTruthy)
  | .character =>
    -- A character is any data whose text has length one.
    match data.toText.toList with
    | [c] => .ok (.character c)
    | _ => .error (.notOneChar data.toText)
  | .text => .ok (.text data.toText)
  | .absent => .ok .absent

/-- Read a value from an object that names its kind and gives its data. -/
def ofJson : Json → Except TreeError Value
  | .obj members =>
    match lookupMember "kind" members with
    | none => .error (.missingKey "kind")
    | some (.str name) =>
      match Kind.ofName? name with
      -- Data that is left out is read as if it were null.
      | some kind => ofData kind ((lookupMember "data" members).getD .null)
      | none => .error (.unknownKind (.str name))
    | some name => .error (.unknownKind name)
  | _ => .error .badShape

/-- The data of a value in JSON. -/
def data : Value → Json
  | .integer n => .int n.toInt
  | .float x => .float x.toDouble
  | .boolean b => .bool b
  | .character c => .str (String.singleton c)
  | .text s => .str s
  | .absent => .null

/-- A value as an object that names its kind and gives its data. -/
def toJson (value : Value) : Json :=
  .obj [("kind", .str value.kind.name), ("data", value.data)]

end Value

/-- The type that JSON data names. -/
def VarType.ofJson : Json → Except TreeError VarType
  | .str name =>
    match VarType.ofName? name with
    | some type => .ok type
    | none => .error (.unknownType (.str name))
  -- Data with parts cannot be looked up among the names at all.
  | .arr _ | .obj _ => .error .badShape
  | other => .error (.unknownType other)

/-- JSON data with what it gives in the places where a tree can have it. -/
structure Reading where
  /-- The data itself. -/
  raw : Json
  /-- The data read as a node. -/
  node : Except TreeError Node
  /-- The parts of the data read as nodes. -/
  nodes : Except TreeError (List Node)

/-- The parts that data is made of when it is gone through: the items of an array, the keys of an
object, or the characters of a text. -/
def Json.parts : Json → Except TreeError (List Json)
  | .arr items => .ok items
  | .obj members => .ok (members.map fun (key, _) => .str key)
  | .str s => .ok (s.toList.map fun c => .str (String.singleton c))
  -- A scalar cannot be gone through.
  | _ => .error .badShape

/-- The nodes that the parts of data without nodes in it give. -/
def Json.nodesOfParts (data : Json) : Except TreeError (List Node) := do
  -- Parts that are not nodes do no harm when there are none of them.
  match ← data.parts with
  | [] => .ok []
  | _ => .error .notObject

namespace Node

/-- A member that must be there. -/
def need (members : List (String × Reading)) (key : String) : Except TreeError Reading :=
  match lookupMember key members with
  | some reading => .ok reading
  | none => .error (.missingKey key)

/-- The node in a member that must be there. -/
def needNode (members : List (String × Reading)) (key : String) : Except TreeError Node := do
  (← need members key).node

/-- The node in a member that may be left out. -/
def optionalNode (members : List (String × Reading)) (key : String) : Except TreeError Node :=
  match lookupMember key members with
  | some reading => reading.node
  | none => .ok .null

/-- The nodes in a member that must be there. -/
def needNodes (members : List (String × Reading)) (key : String) :
    Except TreeError (List Node) := do
  (← need members key).nodes

/-- The label in a member that must be there. -/
def needLabel (members : List (String × Reading)) (key : String) : Except TreeError Json := do
  return (← need members key).raw

/-- The labels in a member that must be there. -/
def needLabels (members : List (String × Reading)) (key : String) :
    Except TreeError (List Json) := do
  (← need members key).raw.parts

/-- The node that an object with the given tag describes. Its parts are read in a fixed order, and
the first that cannot be read decides the error. -/
def ofTagged (tag : Json) (members : List (String × Reading)) : Except TreeError Node :=
  match tag with
  | .str "Program" => return .program (← needNodes members "body")
  | .str "Block" => return .block (← needNodes members "statements")
  | .str "Declarator" =>
    -- A name is taken as it is here; whether it is a label shows when the node is used.
    return .declarator (← needLabel members "name") (← optionalNode members "expr")
  | .str "Declaration" =>
    return .declaration (← needNode members "type_spec") (← needNodes members "declarators")
  | .str "Assign" => return .assign (← needLabels members "targets") (← needNode members "value")
  | .str "IfStmt" =>
    return .ifStmt (← needNode members "condition") (← needNode members "then_block")
      (← optionalNode members "else_branch")
  | .str "WhileStmt" =>
    return .whileStmt (← needNode members "condition") (← needNode members "body")
  | .str "CaseClause" =>
    return .caseClause (← needNode members "value") (← needNode members "body")
  | .str "SwitchStmt" =>
    return .switchStmt (← needNode members "subject") (← needNodes members "cases")
      (← optionalNode members "default")
  -- These nodes have no parts, and further members are not looked at.
  | .str "BreakStmt" => .ok .breakStmt
  | .str "DisplayStmt" => return .displayStmt (← needNode members "expr")
  | .str "ScanStmt" => return .scanStmt (← needLabels members "names")
  | .str "BinaryOp" =>
    return .binaryOp (← needLabel members "op") (← needNode members "left")
      (← needNode members "right")
  | .str "UnaryOp" =>
    return .unaryOp (← needLabel members "op") (← needNode members "operand")
  | .str "Literal" => return .literal (← needNode members "value")
  | .str "Ident" => return .ident (← needLabel members "name")
  | .str "NewlineMark" => .ok .newlineMark
  -- This covers a tag that is missing, read as null.
  | other => .error (.unknownNode other)

/-- The node that an object describes. Types and values have a mark of their own. -/
def ofMembers (members : List (String × Reading)) : Except TreeError Node :=
  -- A mark that is left out is read as null, which is no mark.
  let rawMember (key : String) : Json := ((lookupMember key members).map (·.raw)).getD .null
  match rawMember "__type__" with
  | .str "DeclaredType" => do
    return .varType (← VarType.ofJson (← need members "name").raw)
  | .str "Value" => do
    return .value (← Value.ofJson (← need members "value").raw)
  -- An object without a mark is a node, told apart by its tag.
  | _ => ofTagged (rawMember "type") members

end Node

mutual

/-- Read JSON data in every way a tree can need. -/
def Json.reading : Json → Reading
  | .null => ⟨.null, .ok .null, Json.nodesOfParts .null⟩
  | .arr items =>
    let readings := Json.readings items
    -- Only an array can give nodes; the first item that is none decides the error.
    ⟨.arr items, .error .notObject, readings.mapM (·.node)⟩
  | .obj members =>
    ⟨.obj members, Node.ofMembers (Json.memberReadings members),
      Json.nodesOfParts (.obj members)⟩
  | .bool b => ⟨.bool b, .error .notObject, Json.nodesOfParts (.bool b)⟩
  | .int n => ⟨.int n, .error .notObject, Json.nodesOfParts (.int n)⟩
  | .float x => ⟨.float x, .error .notObject, Json.nodesOfParts (.float x)⟩
  | .str s => ⟨.str s, .error .notObject, Json.nodesOfParts (.str s)⟩

/-- Read the items of an array. -/
def Json.readings : List Json → List Reading
  | [] => []
  | item :: rest => item.reading :: Json.readings rest

/-- Read the members of an object. -/
def Json.memberReadings : List (String × Json) → List (String × Reading)
  | [] => []
  | (key, value) :: rest => (key, value.reading) :: Json.memberReadings rest

end

namespace Node

/-- The tree that JSON data describes. -/
def ofJson (data : Json) : Except TreeError Node :=
  data.reading.node

mutual

/-- A tree as JSON data. -/
def toJson : Node → Json
  | .null => .null
  -- Types and values are marked, so that no tag can be taken for one of them.
  | .varType type => .obj [("__type__", .str "DeclaredType"), ("name", .str type.name)]
  | .value v => .obj [("__type__", .str "Value"), ("value", v.toJson)]
  | .program body => .obj [("type", .str "Program"), ("body", .arr (toJsonList body))]
  | .block statements =>
    .obj [("type", .str "Block"), ("statements", .arr (toJsonList statements))]
  | .declarator name initial =>
    .obj [("type", .str "Declarator"), ("name", name), ("expr", initial.toJson)]
  | .declaration type declarators =>
    .obj [("type", .str "Declaration"), ("type_spec", type.toJson),
      ("declarators", .arr (toJsonList declarators))]
  | .assign targets source =>
    .obj [("type", .str "Assign"), ("targets", .arr targets), ("value", source.toJson)]
  | .ifStmt condition thenBlock elseBranch =>
    .obj [("type", .str "IfStmt"), ("condition", condition.toJson),
      ("then_block", thenBlock.toJson), ("else_branch", elseBranch.toJson)]
  | .whileStmt condition body =>
    .obj [("type", .str "WhileStmt"), ("condition", condition.toJson), ("body", body.toJson)]
  | .caseClause label body =>
    .obj [("type", .str "CaseClause"), ("value", label.toJson), ("body", body.toJson)]
  | .switchStmt subject cases default =>
    .obj [("type", .str "SwitchStmt"), ("subject", subject.toJson),
      ("cases", .arr (toJsonList cases)), ("default", default.toJson)]
  | .breakStmt => .obj [("type", .str "BreakStmt")]
  | .displayStmt shown => .obj [("type", .str "DisplayStmt"), ("expr", shown.toJson)]
  | .scanStmt names => .obj [("type", .str "ScanStmt"), ("names", .arr names)]
  | .binaryOp op left right =>
    .obj [("type", .str "BinaryOp"), ("op", op), ("left", left.toJson), ("right", right.toJson)]
  | .unaryOp op operand =>
    .obj [("type", .str "UnaryOp"), ("op", op), ("operand", operand.toJson)]
  | .literal content => .obj [("type", .str "Literal"), ("value", content.toJson)]
  | .ident name => .obj [("type", .str "Ident"), ("name", name)]
  | .newlineMark => .obj [("type", .str "NewlineMark")]

/-- A list of trees as JSON data. -/
def toJsonList : List Node → List Json
  | [] => []
  | node :: rest => node.toJson :: toJsonList rest

end

end Node

end Pseudocode
