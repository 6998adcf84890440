import Pseudocode.Interchange.NodeJson
import Pseudocode.Interchange.TreeNode
import Pseudocode.Proofs.Json.RoundTrip
import Pseudocode.Proofs.Syntax.Parts

/-! Programs that come from source text are read back from their trees, and their trees are plain
enough to be read back from JSON text. -/

namespace Pseudocode

/-- A known operator with two operands is found by its symbol. -/
theorem BinaryOp.ofSymbol_symbol {op : BinaryOp} (known : op.Known) : ofSymbol op.symbol = op := by
  -- Each of the known operators has a symbol of its own.
  cases op with
  | arith op => cases op <;> rfl
  | join op => cases op <;> rfl
  | compare op => cases op <;> rfl
  | logic op => cases op <;> rfl
  | unknown symbol => exact absurd rfl (known symbol)

/-- A known operator with one operand is found by its symbol. -/
theorem UnaryOp.ofSymbol_symbol {op : UnaryOp} (known : op.Known) : ofSymbol op.symbol = op := by
  cases op with
  | sign op => cases op <;> rfl
  | not => rfl
  | unknown symbol => exact absurd rfl (known symbol)

/-- An expression is read back from its node. -/
theorem Expr.ofNode_toNode (expr : Expr) (sourced : expr.Sourced) : ofNode expr.toNode = expr := by
  -- The induction is on the expression, and its parts are read back by assumption.
  induction expr with
  -- Source text has values as literals, and names as labels.
  | literal content =>
    obtain ⟨value, rfl⟩ := sourced
    rfl
  | ident label =>
    obtain ⟨spelling, rfl⟩ := sourced
    rfl
  | newline => rfl
  -- Operators are stored as their symbols.
  | unary op operand ih =>
    simp only [toNode, ofNode, Json.toText, UnaryOp.ofSymbol_symbol sourced.1, ih sourced.2]
  | binary op left right ihLeft ihRight =>
    simp only [toNode, ofNode, Json.toText, BinaryOp.ofSymbol_symbol sourced.1,
      ihLeft sourced.2.1, ihRight sourced.2.2]
  -- There is no such place in source text.
  | stray defect => exact sourced.elim

/-- An initial value is read back from its node, which is not the one for its absence. -/
theorem Expr.ofInitial_toNode (expr : Expr) (sourced : expr.Sourced) :
    ofInitial expr.toNode = some expr := by
  have back := expr.ofNode_toNode sourced
  -- Only the node for nothing means that there is no initial value.
  cases expr with
  | literal content => exact congrArg some back
  | ident label => exact congrArg some back
  | newline => rfl
  | unary op operand => exact congrArg some back
  | binary op left right => exact congrArg some back
  | stray defect => exact sourced.elim

/-- A declared name is read back from its node. -/
theorem Declarator.ofNode_toNode (declarator : Declarator) (sourced : declarator.Uses .sourced) :
    ofNode declarator.toNode = declarator := by
  obtain ⟨name, initial⟩ := declarator
  obtain ⟨⟨spelling, rfl⟩, values⟩ := sourced
  cases initial with
  -- An absent value is written as the null node.
  | none => rfl
  | some expr =>
    have back := expr.ofInitial_toNode (values expr rfl)
    simp only [toNode, Target.ofName, Option.map_some, Option.getD_some, ofNode, back]
    rfl

/-- Items are read back when each of them is. -/
theorem map_read_write {α β : Type} {write : α → β} {read : β → α} {items : List α}
    (back : ∀ item ∈ items, read (write item) = item) : (items.map write).map read = items := by
  -- Writing and reading one item after the other is doing both to each.
  have same : items.map (read ∘ write) = items.map id := List.map_congr_left back
  rw [List.map_map, same, List.map_id]

/-- Targets are read back from their labels. -/
theorem targets_ofJson_toJson (targets : List Target)
    (sourced : ∀ target ∈ targets, Parts.sourced.target target) :
    (targets.map Target.toJson).map Target.ofJson = targets := by
  refine map_read_write fun target member => ?_
  -- A target in source text is a name.
  obtain ⟨spelling, rfl⟩ := sourced target member
  rfl

mutual

/-- A statement is read back from its node. -/
theorem Stmt.ofNode_toNode (stmt : Stmt) (sourced : stmt.Uses .sourced) :
    Stmt.ofNode stmt.toNode = stmt := by
  -- Each kind of statement has a node of its own, which holds the nodes of its parts.
  cases stmt with
  | declare typing declarators =>
    -- The type is known, and so its node is that of a type.
    obtain ⟨⟨type, rfl⟩, each⟩ := sourced
    -- Each declared name is a node of its own.
    have back : (declarators.map Declarator.toNode).map Declarator.ofNode = declarators :=
      map_read_write fun declarator member => declarator.ofNode_toNode (each declarator member)
    simp only [Stmt.toNode, Stmt.ofNode, back]
    rfl
  | assign targets value =>
    simp only [Stmt.toNode, Stmt.ofNode, targets_ofJson_toJson targets sourced.1,
      value.ofNode_toNode sourced.2]
  | ifElse test body otherwise =>
    -- A body is a block, and what is done otherwise is a node by itself.
    have bodyBack := Stmt.ofNodes_toNodes body sourced.2.1
    have otherwiseBack := otherwise.ofNode_toNode sourced.2.2
    simp only [Stmt.toNode, Stmt.ofNode, Stmt.ofBlock, test.ofNode_toNode sourced.1, bodyBack,
      otherwiseBack]
  | repeatWhile test body =>
    have bodyBack := Stmt.ofNodes_toNodes body sourced.2
    simp only [Stmt.toNode, Stmt.ofNode, Stmt.ofBlock, test.ofNode_toNode sourced.1, bodyBack]
  | switch subject cases default =>
    -- An absent default is the null node, and an empty one is a block.
    cases default with
    | none =>
      have casesBack := Case.ofNodes_toNodes cases sourced.2
      simp only [Stmt.toNode, Stmt.ofNode, subject.ofNode_toNode sourced.1, casesBack]
    | some body =>
      have casesBack := Case.ofNodes_toNodes cases sourced.2.1
      have bodyBack := Stmt.ofNodes_toNodes body sourced.2.2
      simp only [Stmt.toNode, Stmt.ofNode, subject.ofNode_toNode sourced.1, casesBack, bodyBack]
  | breakOut => rfl
  | display value => simp only [Stmt.toNode, Stmt.ofNode, value.ofNode_toNode sourced]
  | scan names => simp only [Stmt.toNode, Stmt.ofNode, targets_ofJson_toJson names sourced]
  -- There are no such places in source text.
  | stray defect => exact sourced.elim
  | noBlock node => exact sourced.elim

/-- Statements are read back from their nodes. -/
theorem Stmt.ofNodes_toNodes (body : List Stmt) (sourced : blockUses .sourced body) :
    Stmt.ofNodes (Stmt.toNodes body) = body := by
  -- The nodes stand in the order of the statements.
  cases body with
  | nil => rfl
  | cons stmt rest =>
    have first := stmt.ofNode_toNode sourced.1
    have others := Stmt.ofNodes_toNodes rest sourced.2
    simp only [Stmt.toNodes, Stmt.ofNodes, first, others]

/-- What a condition leaves to be done is read back from its node. -/
theorem Otherwise.ofNode_toNode (otherwise : Otherwise) (sourced : otherwise.Uses .sourced) :
    Otherwise.ofNode otherwise.toNode = otherwise := by
  cases otherwise with
  -- The null node leaves nothing to be done.
  | nothing => rfl
  | block body =>
    have bodyBack := Stmt.ofNodes_toNodes body sourced
    simp only [Otherwise.toNode, Otherwise.ofNode, bodyBack]
  -- An `ELSE IF` is stored as the condition that it is.
  | elseIf test body otherwise =>
    have bodyBack := Stmt.ofNodes_toNodes body sourced.2.1
    have otherwiseBack := otherwise.ofNode_toNode sourced.2.2
    simp only [Otherwise.toNode, Otherwise.ofNode, Stmt.ofBlock, test.ofNode_toNode sourced.1,
      bodyBack, otherwiseBack]

/-- Cases are read back from their nodes. -/
theorem Case.ofNodes_toNodes (cases : List Case) (sourced : casesUse .sourced cases) :
    Case.ofNodes (Case.toNodes cases) = cases := by
  match cases with
  | [] => rfl
  -- A case holds its value and its body.
  | .mk value body :: rest =>
    have bodyBack := Stmt.ofNodes_toNodes body sourced.1.2
    have others := Case.ofNodes_toNodes rest sourced.2
    simp only [Case.toNodes, Case.ofNodes, Stmt.ofBlock, value.ofNode_toNode sourced.1.1, bodyBack,
      others]

end

/-- A program is read back from its node. -/
theorem Program.ofNode?_toNode (program : Program) (sourced : program.Uses .sourced) :
    ofNode? program.toNode = some program := by
  -- The statements of the program are all there is.
  rw [toNode, ofNode?, Stmt.ofNodes_toNodes program.body sourced]

/-- The data of a value is proper. -/
theorem Value.toJson_proper (value : Value) : value.toJson.Proper := by
  -- The kind and the data of a value are two keys, and the data has no parts.
  cases value <;> simp [toJson, data]

/-- The data of an expression is proper. -/
theorem Expr.toJson_proper (expr : Expr) (sourced : expr.Sourced) : expr.toNode.toJson.Proper := by
  -- Every node has the name of its kind and of its parts as keys, all different.
  induction expr with
  | literal content =>
    obtain ⟨value, rfl⟩ := sourced
    have inside := value.toJson_proper
    simp [toNode, Datum.toNode, Node.toJson, inside]
  | ident label =>
    obtain ⟨spelling, rfl⟩ := sourced
    simp [toNode, Label.toJson, Node.toJson]
  | newline => simp [toNode, Node.toJson]
  | unary op operand ih =>
    simp [toNode, Node.toJson, ih sourced.2]
  | binary op left right ihLeft ihRight =>
    simp [toNode, Node.toJson, ihLeft sourced.2.1, ihRight sourced.2.2]
  | stray defect => exact sourced.elim

/-- The data of a declared name is proper. -/
theorem Declarator.toJson_proper (declarator : Declarator) (sourced : declarator.Uses .sourced) :
    declarator.toNode.toJson.Proper := by
  obtain ⟨name, initial⟩ := declarator
  obtain ⟨⟨spelling, rfl⟩, values⟩ := sourced
  -- An absent initial value is null in the data.
  cases initial with
  | none =>
    simp [toNode, Target.ofName, Target.toJson, Label.toJson, Node.toJson]
  | some expr =>
    -- The initial value has proper data by the lemma on expressions.
    have inside := expr.toJson_proper (values expr rfl)
    simp [toNode, Target.ofName, Target.toJson, Label.toJson, Node.toJson, inside]

/-- The data of nodes is that of each of them. -/
theorem Node.toJsonList_eq_map (nodes : List Node) : toJsonList nodes = nodes.map toJson := by
  -- The two recursions are the same one.
  induction nodes with
  | nil => rfl
  | cons node rest ih => rw [toJsonList, ih, List.map_cons]

/-- Items are proper when each of them is. -/
theorem Json.properItems_iff (items : List Json) :
    properItems items ↔ ∀ item ∈ items, item.Proper := by
  -- The recursion of the condition is the one on the list.
  induction items with
  | nil => simp [properItems]
  | cons item rest ih => simp [properItems, ih]

/-- The data of targets is proper. -/
theorem properItems_targets {targets : List Target}
    (sourced : ∀ target ∈ targets, Parts.sourced.target target) :
    Json.properItems (targets.map Target.toJson) := by
  rw [Json.properItems_iff, List.forall_mem_map]
  intro target member
  -- The label of a target is a text.
  obtain ⟨spelling, rfl⟩ := sourced target member
  simp [Target.ofName, Target.toJson, Label.toJson]

mutual

/-- The data of a statement is proper. -/
theorem Stmt.toJson_proper (stmt : Stmt) (sourced : stmt.Uses .sourced) :
    stmt.toNode.toJson.Proper := by
  -- The keys of each node are different texts, and what they hold is proper.
  cases stmt with
  | declare typing declarators =>
    obtain ⟨⟨type, rfl⟩, each⟩ := sourced
    -- The declared names are nodes, and not plain labels.
    have names : Json.properItems (Node.toJsonList (declarators.map Declarator.toNode)) := by
      rw [Node.toJsonList_eq_map, Json.properItems_iff, List.forall_mem_map, List.forall_mem_map]
      exact fun declarator member => declarator.toJson_proper (each declarator member)
    simp [Stmt.toNode, Typing.toNode, Node.toJson, names]
  | assign targets value =>
    have names := properItems_targets sourced.1
    have inside := value.toJson_proper sourced.2
    simp [Stmt.toNode, Node.toJson, names, inside]
  | ifElse test body otherwise =>
    -- The three parts are proper each, and the statement adds its keys.
    have testProper := test.toJson_proper sourced.1
    have bodyProper := properItems_toNodes body sourced.2.1
    have otherwiseProper := otherwise.toJson_proper sourced.2.2
    simp [Stmt.toNode, Node.toJson, testProper, bodyProper, otherwiseProper]
  | repeatWhile test body =>
    have testProper := test.toJson_proper sourced.1
    have bodyProper := properItems_toNodes body sourced.2
    simp [Stmt.toNode, Node.toJson, testProper, bodyProper]
  | switch subject cases default =>
    cases default with
    -- Without a default there is null in its place.
    | none =>
      have subjectProper := subject.toJson_proper sourced.1
      have casesProper := properItems_cases cases sourced.2
      simp [Stmt.toNode, Node.toJson, subjectProper, casesProper]
    | some body =>
      have subjectProper := subject.toJson_proper sourced.1
      have casesProper := properItems_cases cases sourced.2.1
      have bodyProper := properItems_toNodes body sourced.2.2
      simp [Stmt.toNode, Node.toJson, subjectProper, casesProper, bodyProper]
  | breakOut => simp [Stmt.toNode, Node.toJson]
  | display value =>
    have inside := value.toJson_proper sourced
    simp [Stmt.toNode, Node.toJson, inside]
  | scan names =>
    have names := properItems_targets sourced
    simp [Stmt.toNode, Node.toJson, names]
  | stray defect => exact sourced.elim
  | noBlock node => exact sourced.elim

/-- The data of statements is proper. -/
theorem properItems_toNodes (body : List Stmt) (sourced : blockUses .sourced body) :
    Json.properItems (Node.toJsonList (Stmt.toNodes body)) := by
  cases body with
  | nil => simp [Stmt.toNodes, Node.toJsonList]
  | cons stmt rest =>
    have first := stmt.toJson_proper sourced.1
    have others := properItems_toNodes rest sourced.2
    simp [Stmt.toNodes, Node.toJsonList, first, others]

/-- The data of what a condition leaves to be done is proper. -/
theorem Otherwise.toJson_proper (otherwise : Otherwise) (sourced : otherwise.Uses .sourced) :
    otherwise.toNode.toJson.Proper := by
  -- What is left to be done is null, a block or a condition.
  cases otherwise with
  | nothing => simp [Otherwise.toNode, Node.toJson]
  | block body =>
    have bodyProper := properItems_toNodes body sourced
    simp [Otherwise.toNode, Node.toJson, bodyProper]
  | elseIf test body otherwise =>
    have testProper := test.toJson_proper sourced.1
    have bodyProper := properItems_toNodes body sourced.2.1
    have otherwiseProper := otherwise.toJson_proper sourced.2.2
    simp [Otherwise.toNode, Node.toJson, testProper, bodyProper, otherwiseProper]

/-- The data of cases is proper. -/
theorem properItems_cases (cases : List Case) (sourced : casesUse .sourced cases) :
    Json.properItems (Node.toJsonList (Case.toNodes cases)) := by
  match cases with
  | [] => simp [Case.toNodes, Node.toJsonList]
  -- The cases are nodes one after the other.
  | .mk value body :: rest =>
    have valueProper := value.toJson_proper sourced.1.1
    have bodyProper := properItems_toNodes body sourced.1.2
    have others := properItems_cases rest sourced.2
    simp [Case.toNodes, Node.toJsonList, Node.toJson, valueProper, bodyProper, others]

end

/-- A program from source text is read back from the JSON text of its tree. -/
theorem Program.read?_render (program : Program) (sourced : program.Uses .sourced) :
    Json.read? program.toNode.toJson.render = some program.toNode.toJson := by
  -- What is proper is read back, so it is enough that the tree is.
  apply Json.read?_render
  have body := properItems_toNodes program.body sourced
  simp [toNode, Node.toJson, body]

end Pseudocode
