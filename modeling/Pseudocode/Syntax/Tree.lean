import Pseudocode.Syntax.Operator
import Pseudocode.Syntax.Part

/-! Programs as they are run: expressions and statements. -/

namespace Pseudocode

/-- An expression. -/
inductive Expr where
  | literal (content : Datum)
  | ident (label : Label)
  /-- A line break, written as a bare `$`. -/
  | newline
  | unary (op : UnaryOp) (operand : Expr)
  | binary (op : BinaryOp) (left right : Expr)
  /-- The place of an expression in which there is none. -/
  | stray (defect : Defect)

/-- A declared name, with its initial value if one stands right after it. -/
structure Declarator where
  /-- The name. -/
  name : Target
  /-- The initial value. -/
  initial : Option Expr

mutual

/-- A statement. -/
inductive Stmt where
  | declare (typing : Typing) (declarators : List Declarator)
  | assign (targets : List Target) (value : Expr)
  | ifElse (test : Expr) (body : List Stmt) (otherwise : Otherwise)
  | repeatWhile (test : Expr) (body : List Stmt)
  | switch (subject : Expr) (cases : List Case) (default : Option (List Stmt))
  | breakOut
  | display (value : Expr)
  | scan (names : List Target)
  -- The last two do not arise from source text.
  /-- The place of a statement in which there is none. -/
  | stray (defect : Defect)
  /-- The only statement of a body that is no list of statements. -/
  | noBlock (node : Node)

/-- What happens when a condition does not hold. -/
inductive Otherwise where
  | nothing
  -- A chain of else-ifs is one branch inside another, with no block around it.
  | block (body : List Stmt)
  | elseIf (test : Expr) (body : List Stmt) (otherwise : Otherwise)

/-- A case of a switch. -/
inductive Case where
  | mk (value : Expr) (body : List Stmt)

end

/-- The value that a case stands for. -/
def Case.value : Case → Expr
  | .mk value _ => value

/-- The statements of a case. -/
def Case.body : Case → List Stmt
  | .mk _ body => body

/-- A whole program. -/
structure Program where
  /-- The statements at the top level. -/
  body : List Stmt

/-- The name of a statement's kind in traces. -/
def Stmt.kindName : Stmt → String
  | .declare _ _ => "Declaration"
  | .assign _ _ => "Assign"
  | .ifElse _ _ _ => "IfStmt"
  | .repeatWhile _ _ => "WhileStmt"
  | .switch _ _ _ => "SwitchStmt"
  | .breakOut => "BreakStmt"
  | .display _ => "DisplayStmt"
  | .scan _ => "ScanStmt"
  -- A defect is named after the node that was found there.
  | .stray defect => defect.node.kindName
  | .noBlock node => node.kindName

/-- Whether a list of statements ends in a `BREAK`. -/
def endsInBreak (body : List Stmt) : Bool :=
  match body.getLast? with
  | some .breakOut => true
  | _ => false

end Pseudocode
