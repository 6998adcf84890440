import Pseudocode.Json.Basic
import Pseudocode.Value.Display

/-! Program trees as they are interchanged: any node may stand anywhere, and labels are kept as
they were written. -/

namespace Pseudocode

/-- A node of an interchanged tree. A missing part is the null node. -/
inductive Node where
  | null
  | varType (type : VarType)
  | value (v : Value)
  | program (body : List Node)
  | block (statements : List Node)
  -- Names and operators are kept as the data they were written as.
  | declarator (name : Json) (initial : Node)
  | declaration (type : Node) (declarators : List Node)
  | assign (targets : List Json) (source : Node)
  | ifStmt (condition thenBlock elseBranch : Node)
  | whileStmt (condition body : Node)
  | caseClause (label body : Node)
  | switchStmt (subject : Node) (cases : List Node) (default : Node)
  | breakStmt
  | displayStmt (shown : Node)
  | scanStmt (names : List Json)
  | binaryOp (op : Json) (left right : Node)
  | unaryOp (op : Json) (operand : Node)
  | literal (content : Node)
  | ident (name : Json)
  | newlineMark

/-- The name of a node's kind, as interchanged trees and traces show it. -/
def Node.kindName : Node → String
  -- What stands in the place of a node is named too, when it is missing or a value.
  | .null => "NoneType"
  | .varType _ => "DeclaredType"
  | .value _ => "Value"
  | .program _ => "Program"
  | .block _ => "Block"
  | .declarator _ _ => "Declarator"
  | .declaration _ _ => "Declaration"
  | .assign _ _ => "Assign"
  | .ifStmt _ _ _ => "IfStmt"
  | .whileStmt _ _ => "WhileStmt"
  | .caseClause _ _ => "CaseClause"
  | .switchStmt _ _ _ => "SwitchStmt"
  | .breakStmt => "BreakStmt"
  | .displayStmt _ => "DisplayStmt"
  | .scanStmt _ => "ScanStmt"
  | .binaryOp _ _ _ => "BinaryOp"
  | .unaryOp _ _ => "UnaryOp"
  | .literal _ => "Literal"
  | .ident _ => "Ident"
  | .newlineMark => "NewlineMark"

/-- Whether a node is of one of the kinds that can be executed. -/
def Node.isStatement : Node → Bool
  -- A block is not executed itself, and neither is a program inside a program.
  | .declaration _ _ | .assign _ _ | .ifStmt _ _ _ | .whileStmt _ _ | .switchStmt _ _ _
  | .breakStmt | .displayStmt _ | .scanStmt _ => true
  | _ => false

/-- The label that a node has as its name, if nodes of its kind have one. -/
def Node.name? : Node → Option Json
  -- A type has its name in the same place as an identifier has.
  | .varType type => some (.str type.name)
  | .declarator name _ | .ident name => some name
  | _ => none

/-- The description of a node from those of its parts. -/
def describeParts (kind : String) (parts : List (String × String)) : String :=
  kind ++ "(" ++ ", ".intercalate (parts.map fun (key, part) => key ++ "=" ++ part) ++ ")"

/-- The description of a list from those of its items. -/
def describeList (items : List String) : String :=
  "[" ++ ", ".intercalate items ++ "]"

mutual

/-- A node in a trace, with all of its parts. -/
def Node.describe : Node → String
  -- A missing part, a type and a value have descriptions of their own.
  | .null => "None"
  | .varType type => type.name
  | .value v => v.describe
  | .program body => describeParts "Program" [("body", describeList (Node.describeAll body))]
  | .block statements =>
    describeParts "Block" [("statements", describeList (Node.describeAll statements))]
  | .declarator name initial =>
    describeParts "Declarator" [("name", name.describe), ("expr", initial.describe)]
  | .declaration type declarators =>
    describeParts "Declaration"
      [("type_spec", type.describe), ("declarators", describeList (Node.describeAll declarators))]
  | .assign targets source =>
    describeParts "Assign"
      [("targets", describeList (targets.map Json.describe)), ("value", source.describe)]
  | .ifStmt condition thenBlock elseBranch =>
    describeParts "IfStmt"
      [("condition", condition.describe), ("then_block", thenBlock.describe),
        ("else_branch", elseBranch.describe)]
  | .whileStmt condition body =>
    describeParts "WhileStmt" [("condition", condition.describe), ("body", body.describe)]
  | .caseClause label body =>
    describeParts "CaseClause" [("value", label.describe), ("body", body.describe)]
  | .switchStmt subject cases default =>
    describeParts "SwitchStmt"
      [("subject", subject.describe), ("cases", describeList (Node.describeAll cases)),
        ("default", default.describe)]
  | .breakStmt => describeParts "BreakStmt" []
  | .displayStmt shown => describeParts "DisplayStmt" [("expr", shown.describe)]
  | .scanStmt names =>
    describeParts "ScanStmt" [("names", describeList (names.map Json.describe))]
  | .binaryOp op left right =>
    describeParts "BinaryOp"
      [("op", op.describe), ("left", left.describe), ("right", right.describe)]
  | .unaryOp op operand =>
    describeParts "UnaryOp" [("op", op.describe), ("operand", operand.describe)]
  | .literal content => describeParts "Literal" [("value", content.describe)]
  | .ident name => describeParts "Ident" [("name", name.describe)]
  | .newlineMark => describeParts "NewlineMark" []

/-- Nodes in a trace. -/
def Node.describeAll : List Node → List String
  | [] => []
  | node :: rest => node.describe :: Node.describeAll rest

end

end Pseudocode
