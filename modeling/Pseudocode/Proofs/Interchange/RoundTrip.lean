import Pseudocode.Interchange.NodeJson
import Pseudocode.Proofs.Numeric.Widening

/-! Trees that are written as JSON data are read back as they were, and what is read leniently is
settled by writing it once. -/

namespace Pseudocode

/-- The data of a value is read back as the value, in the kind that it is written under. -/
theorem Value.ofData_data (value : Value) : ofData value.kind value.data = .ok value := by
  cases value with
  | integer n =>
    -- The whole number is in range, so that reducing it to 32 bits changes nothing.
    show Except.ok (Value.integer (Int32.ofInt n.toInt)) = _
    rw [Int32.ofInt_toInt]
  | float x =>
    -- Widening is exact, so that rounding finds the number that was widened.
    have back : x.toDouble.toSingle? = some x := Single.toSingle?_toDouble x
    simp [ofData, kind, data, Json.toDouble, ofDouble?, back, Bind.bind, Except.bind]
  | boolean b => rfl
  | character c => simp [ofData, kind, data, Json.toText]
  | text s => rfl
  | absent => rfl

/-- A value that is written is read back. -/
theorem Value.ofJson_toJson (value : Value) : ofJson value.toJson = .ok value := by
  have kind : lookupMember "kind" [("kind", .str value.kind.name), ("data", value.data)] =
      some (.str value.kind.name) := rfl
  have data : lookupMember "data" [("kind", .str value.kind.name), ("data", value.data)] =
      some value.data := rfl
  simp only [ofJson, toJson, kind, data, Kind.ofName?_name, Option.getD_some, ofData_data]

/-- Data is kept beside what it is read as. -/
@[simp] theorem Json.reading_raw (data : Json) : data.reading.raw = data := by
  cases data <;> rfl

/-- Of the items of an array it is the nodes that are read from it. -/
@[simp] theorem Json.reading_nodes_arr (items : List Json) :
    (Json.arr items).reading.nodes = (Json.readings items).mapM (·.node) := by
  simp only [reading]

namespace Node

mutual

/-- A tree that is written is read back. -/
theorem ofJson_toJson (node : Node) : ofJson node.toJson = .ok node := by
  -- In each case it is said what is read from the written members, in the order of the reading.
  cases node with
  | null => rfl
  | varType type =>
    show (do return Node.varType (← VarType.ofJson (.str type.name))) = _
    rw [VarType.ofJson, VarType.ofName?_name]
    rfl
  | value v =>
    show (do return Node.value (← Value.ofJson v.toJson)) = _
    rw [Value.ofJson_toJson]
    rfl
  | program body =>
    have bodyRead := reading_toJsonList body
    show (do return Node.program (← (Json.arr (toJsonList body)).reading.nodes)) = _
    rw [bodyRead]
    rfl
  | block statements =>
    have statementsRead := reading_toJsonList statements
    show (do return Node.block (← (Json.arr (toJsonList statements)).reading.nodes)) = _
    rw [statementsRead]
    rfl
  | declarator name initial =>
    have initialRead : initial.toJson.reading.node = .ok initial := ofJson_toJson initial
    show (do return Node.declarator name.reading.raw (← initial.toJson.reading.node)) = _
    rw [Json.reading_raw, initialRead]
    rfl
  | declaration type declarators =>
    have typeRead : type.toJson.reading.node = .ok type := ofJson_toJson type
    have declaratorsRead := reading_toJsonList declarators
    show (do return Node.declaration (← type.toJson.reading.node)
              (← (Json.arr (toJsonList declarators)).reading.nodes)) = _
    rw [typeRead, declaratorsRead]
    rfl
  | assign targets source =>
    have sourceRead : source.toJson.reading.node = .ok source := ofJson_toJson source
    show (do return Node.assign targets (← source.toJson.reading.node)) = _
    rw [sourceRead]
    rfl
  | ifStmt condition thenBlock elseBranch =>
    have conditionRead : condition.toJson.reading.node = .ok condition := ofJson_toJson condition
    have thenBlockRead : thenBlock.toJson.reading.node = .ok thenBlock := ofJson_toJson thenBlock
    have elseBranchRead : elseBranch.toJson.reading.node = .ok elseBranch :=
      ofJson_toJson elseBranch
    show (do return Node.ifStmt (← condition.toJson.reading.node) (← thenBlock.toJson.reading.node)
              (← elseBranch.toJson.reading.node)) = _
    rw [conditionRead, thenBlockRead, elseBranchRead]
    rfl
  | whileStmt condition body =>
    have conditionRead : condition.toJson.reading.node = .ok condition := ofJson_toJson condition
    have bodyRead : body.toJson.reading.node = .ok body := ofJson_toJson body
    show (do return Node.whileStmt (← condition.toJson.reading.node)
              (← body.toJson.reading.node)) = _
    rw [conditionRead, bodyRead]
    rfl
  | caseClause label body =>
    have labelRead : label.toJson.reading.node = .ok label := ofJson_toJson label
    have bodyRead : body.toJson.reading.node = .ok body := ofJson_toJson body
    show (do return Node.caseClause (← label.toJson.reading.node) (← body.toJson.reading.node)) = _
    rw [labelRead, bodyRead]
    rfl
  | switchStmt subject cases default =>
    have subjectRead : subject.toJson.reading.node = .ok subject := ofJson_toJson subject
    have defaultRead : default.toJson.reading.node = .ok default := ofJson_toJson default
    have casesRead := reading_toJsonList cases
    show (do return Node.switchStmt (← subject.toJson.reading.node)
              (← (Json.arr (toJsonList cases)).reading.nodes) (← default.toJson.reading.node)) = _
    rw [subjectRead, casesRead, defaultRead]
    rfl
  | breakStmt => rfl
  | displayStmt shown =>
    have shownRead : shown.toJson.reading.node = .ok shown := ofJson_toJson shown
    show (do return Node.displayStmt (← shown.toJson.reading.node)) = _
    rw [shownRead]
    rfl
  | scanStmt names => rfl
  | binaryOp op left right =>
    have leftRead : left.toJson.reading.node = .ok left := ofJson_toJson left
    have rightRead : right.toJson.reading.node = .ok right := ofJson_toJson right
    show (do return Node.binaryOp op.reading.raw (← left.toJson.reading.node)
              (← right.toJson.reading.node)) = _
    rw [Json.reading_raw, leftRead, rightRead]
    rfl
  | unaryOp op operand =>
    have operandRead : operand.toJson.reading.node = .ok operand := ofJson_toJson operand
    show (do return Node.unaryOp op.reading.raw (← operand.toJson.reading.node)) = _
    rw [Json.reading_raw, operandRead]
    rfl
  | literal content =>
    have contentRead : content.toJson.reading.node = .ok content := ofJson_toJson content
    show (do return Node.literal (← content.toJson.reading.node)) = _
    rw [contentRead]
    rfl
  | ident name =>
    show Except.ok (Node.ident name.reading.raw) = _
    rw [Json.reading_raw]
  | newlineMark => rfl

/-- The nodes of a list that is written are read back in order. -/
theorem reading_toJsonList (nodes : List Node) :
    (Json.arr (toJsonList nodes)).reading.nodes = .ok nodes := by
  rw [Json.reading_nodes_arr]
  cases nodes with
  | nil => rfl
  | cons node rest =>
    have first : node.toJson.reading.node = .ok node := ofJson_toJson node
    have others := reading_toJsonList rest
    rw [Json.reading_nodes_arr] at others
    rw [toJsonList, Json.readings, List.mapM_cons, first, others]
    rfl

end

/-- Data as it is written after it has been read as a tree: optional members are filled in, other
members are left out, and literals have the form of their values. -/
def normalize (data : Json) : Except TreeError Json :=
  (ofJson data).map toJson

/-- Trees and their written form belong together. Every tree is read back from what is written of
it. And whatever data is read, however leniently, the tree that it gives is read back from what is
written of it, so that normalizing twice is normalizing once. -/
theorem ofJson_toJson_roundTrip :
    (∀ node : Node, ofJson node.toJson = .ok node) ∧
    ∀ data : Json,
      (do ofJson (← ofJson data).toJson) = ofJson data ∧
      (do normalize (← normalize data)) = normalize data := by
  refine ⟨ofJson_toJson, fun data => ?_⟩
  -- Data that is refused is refused once, and data that is read gives a tree like any other.
  cases read : ofJson data with
  | error error =>
    have refused : normalize data = .error error := by rw [normalize, read]; rfl
    rw [refused]
    exact ⟨rfl, rfl⟩
  | ok node =>
    have written : normalize data = .ok node.toJson := by rw [normalize, read]; rfl
    have again : normalize node.toJson = .ok node.toJson := by
      rw [normalize, ofJson_toJson]
      rfl
    rw [written]
    exact ⟨ofJson_toJson node, again⟩

-- A member is not known, a branch is missing, and a number is too large for its kind.
example :
    normalize (.obj [("note", .null), ("type", .str "IfStmt"),
      ("then_block", .obj [("type", .str "Block"), ("statements", .str "")]),
      ("condition", .obj [("__type__", .str "Value"), ("value",
        .obj [("kind", .str "Integer"), ("data", .int 2147483648)])])]) =
    .ok (.obj [("type", .str "IfStmt"),
      ("condition", .obj [("__type__", .str "Value"), ("value",
        .obj [("kind", .str "Integer"), ("data", .int (-2147483648))])]),
      ("then_block", .obj [("type", .str "Block"), ("statements", .arr [])]),
      ("else_branch", .null)]) := by
  rfl

end Node

end Pseudocode
