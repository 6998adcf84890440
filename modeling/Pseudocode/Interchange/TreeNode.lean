import Pseudocode.Syntax.Tree

/-! Between interchanged trees and programs. -/

namespace Pseudocode

/-- The expression that a node stands for. -/
def Expr.ofNode : Node → Expr
  | .literal content => .literal (.ofNode content)
  | .ident name =>
    match Label.ofJson? name with
    -- A name that is no label fails when the variable is looked up.
    | some label => .ident label
    | none => .stray (.noLabel name)
  | .newlineMark => .newline
  -- Symbols are looked up by their text; an unknown one fails when it is applied.
  | .unaryOp op operand => .unary (.ofSymbol op.toText) (ofNode operand)
  | .binaryOp op left right => .binary (.ofSymbol op.toText) (ofNode left) (ofNode right)
  -- A node that is no expression fails when it is evaluated.
  | other => .stray (.notExpression other)

/-- The initial value that a node stands for. The null node stands for its absence. -/
def Expr.ofInitial : Node → Option Expr
  | .null => none
  | node => some (.ofNode node)

/-- The declared name that a node stands for. A node that shows something has what could be an
initial value, and no name; other nodes fail as soon as their initial value is looked for. -/
def Declarator.ofNode : Node → Declarator
  | .declarator name initial => ⟨.ofJson name, Expr.ofInitial initial⟩
  | .displayStmt shown => ⟨.stray (.malformed (.displayStmt shown)), Expr.ofInitial shown⟩
  | other => ⟨.stray (.malformed other), some (.stray (.malformed other))⟩

/-- What is wrong with a node that does not stand for a statement. -/
def Node.statementDefect (node : Node) : Defect :=
  if node.isStatement then .malformed node else .notStatement node

mutual

/-- The statement that a node stands for. -/
def Stmt.ofNode : Node → Stmt
  | .declaration type declarators => .declare (.ofNode type) (declarators.map Declarator.ofNode)
  | .assign targets value => .assign (targets.map Target.ofJson) (.ofNode value)
  | .ifStmt condition body elseBranch =>
    .ifElse (.ofNode condition) (Stmt.ofBlock body) (Otherwise.ofNode elseBranch)
  | .whileStmt condition body => .repeatWhile (.ofNode condition) (Stmt.ofBlock body)
  -- An absent default is not an empty one, which lacks the break it must end with.
  | .switchStmt subject cases .null =>
    .switch (.ofNode subject) (Case.ofNodes cases) none
  | .switchStmt subject cases (.block body) =>
    .switch (.ofNode subject) (Case.ofNodes cases) (some (Stmt.ofNodes body))
  | .breakStmt => .breakOut
  | .displayStmt value => .display (.ofNode value)
  | .scanStmt names => .scan (names.map Target.ofJson)
  -- This holds a switch whose default is neither absent nor a block, too.
  | other => .stray other.statementDefect

/-- The statements that nodes stand for. -/
def Stmt.ofNodes : List Node → List Stmt
  | [] => []
  | node :: rest => Stmt.ofNode node :: Stmt.ofNodes rest

/-- The statements of the block that a node stands for. What is wrong with a node that is no block
shows when its statements are to be run. -/
def Stmt.ofBlock : Node → List Stmt
  | .block body => Stmt.ofNodes body
  | other => [.noBlock other]

/-- What an else branch stands for. Anything but a block or a condition does nothing. -/
def Otherwise.ofNode : Node → Otherwise
  | .block body => .block (Stmt.ofNodes body)
  -- An else branch may itself be a condition, and so on.
  | .ifStmt condition body elseBranch =>
    .elseIf (.ofNode condition) (Stmt.ofBlock body) (Otherwise.ofNode elseBranch)
  | _ => .nothing

/-- The cases that nodes stand for. Literals and assignments have what could be the value of a
case, and no body; other nodes have no value either. -/
def Case.ofNodes : List Node → List Case
  | [] => []
  | .caseClause value body :: rest =>
    .mk (.ofNode value) (Stmt.ofBlock body) :: Case.ofNodes rest
  | .literal content :: rest =>
    .mk (.ofNode content) [.noBlock (.literal content)] :: Case.ofNodes rest
  | .assign targets value :: rest =>
    .mk (.ofNode value) [.noBlock (.assign targets value)] :: Case.ofNodes rest
  | other :: rest => .mk (.stray (.malformed other)) [] :: Case.ofNodes rest

end

/-- The program that a node stands for. -/
def Program.ofNode? : Node → Option Program
  | .program body => some ⟨Stmt.ofNodes body⟩
  | _ => none

/-- An expression as a node. -/
def Expr.toNode : Expr → Node
  | .literal content => .literal content.toNode
  | .ident label => .ident label.toJson
  | .newline => .newlineMark
  -- What could not be understood is written as the node it came from.
  | .unary op operand => .unaryOp (.str op.symbol) operand.toNode
  | .binary op left right => .binaryOp (.str op.symbol) left.toNode right.toNode
  | .stray defect => defect.node

/-- A declared name as a node. -/
def Declarator.toNode (declarator : Declarator) : Node :=
  match declarator.name with
  -- A defect in the place of the name stands for the whole node.
  | .stray (.malformed node) => node
  | name => .declarator name.toJson ((declarator.initial.map Expr.toNode).getD .null)

mutual

/-- A statement as a node. -/
def Stmt.toNode : Stmt → Node
  | .declare typing declarators =>
    .declaration typing.toNode (declarators.map Declarator.toNode)
  | .assign targets value => .assign (targets.map Target.toJson) value.toNode
  | .ifElse test body otherwise =>
    .ifStmt test.toNode (.block (Stmt.toNodes body)) otherwise.toNode
  | .repeatWhile test body => .whileStmt test.toNode (.block (Stmt.toNodes body))
  | .switch subject cases none => .switchStmt subject.toNode (Case.toNodes cases) .null
  | .switch subject cases (some body) =>
    .switchStmt subject.toNode (Case.toNodes cases) (.block (Stmt.toNodes body))
  | .breakOut => .breakStmt
  | .display value => .displayStmt value.toNode
  | .scan names => .scanStmt (names.map Target.toJson)
  | .stray defect => defect.node
  -- A body that is no block is kept whole, as its only statement.
  | .noBlock node => node

/-- Statements as nodes. -/
def Stmt.toNodes : List Stmt → List Node
  | [] => []
  | stmt :: rest => stmt.toNode :: Stmt.toNodes rest

/-- An else branch as a node. -/
def Otherwise.toNode : Otherwise → Node
  | .nothing => .null
  | .block body => .block (Stmt.toNodes body)
  -- An else-if is a condition in the place of the else branch.
  | .elseIf test body otherwise =>
    .ifStmt test.toNode (.block (Stmt.toNodes body)) otherwise.toNode

/-- Cases as nodes. -/
def Case.toNodes : List Case → List Node
  | [] => []
  | .mk value body :: rest =>
    .caseClause value.toNode (.block (Stmt.toNodes body)) :: Case.toNodes rest

end

/-- A program as a node. -/
def Program.toNode (program : Program) : Node :=
  .program (Stmt.toNodes program.body)

end Pseudocode
