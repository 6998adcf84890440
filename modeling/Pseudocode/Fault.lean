import Pseudocode.Syntax.Operator
import Pseudocode.Value.Display

/-! What can go wrong while a program runs, and the words for it. -/

namespace Pseudocode

/-- The statements that decide by a truth value. -/
inductive Conditional where
  | ifs
  | whiles
deriving DecidableEq, Repr

/-- The keyword that opens a conditional statement. -/
def Conditional.word : Conditional → String
  | .ifs => "IF"
  | .whiles => "WHILE"

/-- The ways in which kinds of values do not fit. -/
inductive Mismatch where
  /-- A variable is assigned a value of another kind than its own. -/
  | assignment (got : Kind) (name : String) (declared : VarType)
  /-- A condition is no truth value. -/
  | condition (conditional : Conditional) (got : Kind)
  /-- A sign stands before something that is no number. -/
  | signed (sign : Sign) (got : Kind)
  /-- A negation stands before something that is no truth value. -/
  | negated (got : Kind)
  /-- An operand of a logical operator is no truth value. -/
  | logic (op : LogicOp) (got : Kind)
  /-- Two values cannot be joined. -/
  | join (op : JoinOp) (left right : Kind)
  /-- Two values of a kind can be told apart, but have no order. -/
  | unordered (op : CompareOp) (operands : Kind)
  /-- Two values cannot be compared at all. -/
  | compare (op : CompareOp) (left right : Kind)
  /-- A remainder is asked of numbers that are not both integers. -/
  | remainder
  /-- Two values do not go together in arithmetic. -/
  | arith (op : ArithOp) (left right : Kind)
  /-- A text in arithmetic holds no digits. -/
  | digitless (op : ArithOp) (left right : Kind) (text : String)
deriving DecidableEq

/-- The ways in which a value or an input line cannot be brought to a type. -/
inductive Unconvertible where
  /-- A value has no counterpart in the type. -/
  | value (source : Value) (target : VarType)
  /-- An input line for a character is not one character. -/
  | notOneChar (input : String)
  /-- An input line does not spell a value of the type. -/
  | line (input : String) (target : VarType)
  /-- An input line is read for something that only has the name of a type. -/
  | unreadable (target : String)
deriving DecidableEq

/-- The ways in which an operator meets a variable without a value. -/
inductive NullUse where
  | unary (op : UnaryOp)
  | binary (op : BinaryOp)
  | logic (op : LogicOp)
deriving DecidableEq

/-- The faults that running a program can meet. -/
inductive Fault where
  | alreadyDeclared (name : String)
  | undeclaredVariable (name : String)
  | typeMismatch (cause : Mismatch)
  | invalidConversion (cause : Unconvertible)
  | divisionByZero
  | numericOverflow (op : ArithOp) (result : Double)
  | invalidCaseType (candidate subject : Kind)
  | missingBreakOnDefault
  | misplacedBreak
  | unknownUnary (symbol : String)
  | unknownBinary (symbol : String)
  | nullOperand (cause : NullUse)
deriving DecidableEq

/-- The names under which faults are reported. -/
inductive FaultKind where
  | alreadyDeclared
  | undeclaredVariable
  | typeMismatch
  | invalidConversion
  | divisionByZero
  | numericOverflow
  | invalidCaseType
  | missingBreakOnDefault
  | misplacedBreak
  | unknownOperator
  | nullOperand
deriving DecidableEq, Repr

/-- The name of a kind of fault in reports. -/
def FaultKind.name : FaultKind → String
  | .alreadyDeclared => "AlreadyDeclared"
  | .undeclaredVariable => "UndeclaredVariable"
  | .typeMismatch => "TypeMismatch"
  | .invalidConversion => "InvalidConversion"
  | .divisionByZero => "DivisionByZero"
  | .numericOverflow => "NumericOverflow"
  | .invalidCaseType => "InvalidCaseType"
  | .missingBreakOnDefault => "MissingBreakOnDefault"
  | .misplacedBreak => "MisplacedBreak"
  | .unknownOperator => "UnknownOperator"
  | .nullOperand => "NullOperand"

/-- Whether a fault of this kind stops the whole run. The others only end their statement. -/
def FaultKind.isFatal : FaultKind → Bool
  | .unknownOperator | .nullOperand => true
  -- The others are reported where they arise, and the run goes on unless it is strict.
  | _ => false

/-- The words for values that do not fit. -/
def Mismatch.message : Mismatch → String
  | .assignment got name declared =>
    "cannot assign " ++ got.name ++ " to variable " ++ name ++ " of type " ++ declared.name
  | .condition conditional got =>
    conditional.word ++ " condition must be Boolean, got " ++ got.name
  | .signed sign got => "unary " ++ sign.symbol ++ " expects a number, got " ++ got.name
  | .negated got => "NOT expects Boolean operands, got " ++ got.name
  | .logic op got => op.symbol ++ " expects Boolean operands, got " ++ got.name
  | .join op left right =>
    "cannot join " ++ left.name ++ " and " ++ right.name ++ " with " ++ op.symbol
  | .unordered op operands =>
    "operator " ++ op.symbol ++ " is not defined for " ++ operands.name ++ " operands"
  | .compare op left right =>
    "cannot compare " ++ left.name ++ " and " ++ right.name ++ " with " ++ op.symbol
  | .remainder => "% requires Integer operands"
  | .arith op left right =>
    "unsupported " ++ op.symbol ++ " for " ++ left.name ++ " and " ++ right.name
  | .digitless op left right text =>
    "unsupported " ++ op.symbol ++ " for " ++ left.name ++ " and " ++ right.name ++
      ": no digits in " ++ quoted text

/-- The words for a failed conversion. -/
def Unconvertible.message : Unconvertible → String
  | .value source target =>
    "cannot convert " ++ source.kind.name ++ " " ++ quoted source.display ++ " to " ++ target.name
  | .notOneChar input => "CHAR input needs exactly one character, got " ++ quoted input
  | .line input target => "input " ++ quoted input ++ " is not a valid " ++ target.name
  | .unreadable target => "cannot read input into " ++ target

/-- The words for an operator that meets a variable without a value. -/
def NullUse.message : NullUse → String
  | .unary op => "unary " ++ op.symbol ++ " applied to a variable with no value"
  | .binary op => "operator " ++ op.symbol ++ " applied to a variable with no value"
  | .logic op => op.symbol ++ " applied to a variable with no value"

namespace Fault

/-- The kind under which a fault is reported. -/
def kind : Fault → FaultKind
  | .alreadyDeclared _ => .alreadyDeclared
  | .undeclaredVariable _ => .undeclaredVariable
  | .typeMismatch _ => .typeMismatch
  | .invalidConversion _ => .invalidConversion
  | .divisionByZero => .divisionByZero
  | .numericOverflow _ _ => .numericOverflow
  | .invalidCaseType _ _ => .invalidCaseType
  | .missingBreakOnDefault => .missingBreakOnDefault
  | .misplacedBreak => .misplacedBreak
  -- Both kinds of operators have one name in reports.
  | .unknownUnary _ | .unknownBinary _ => .unknownOperator
  | .nullOperand _ => .nullOperand

/-- Whether a fault stops the whole run. -/
def isFatal (fault : Fault) : Bool :=
  -- The kind alone decides, not what the fault carries.
  fault.kind.isFatal

/-- The words for a fault, without its kind. -/
def detail : Fault → String
  | .alreadyDeclared name => "variable " ++ name ++ " is already declared"
  | .undeclaredVariable name => "variable " ++ name ++ " is not declared"
  | .typeMismatch cause => cause.message
  | .invalidConversion cause => cause.message
  | .divisionByZero => "division by zero"
  | .numericOverflow op result =>
    op.symbol ++ " result " ++ result.text ++ " is outside the Float range"
  | .invalidCaseType candidate subject =>
    "CASE value of type " ++ candidate.name ++ " does not match SWITCH type " ++ subject.name
  | .missingBreakOnDefault => "DEFAULT block must end with BREAK"
  | .misplacedBreak => "BREAK outside of SWITCH"
  | .unknownUnary symbol => "unknown unary operator " ++ symbol
  | .unknownBinary symbol => "unknown operator " ++ symbol
  | .nullOperand cause => cause.message

/-- The full message of a fault. -/
def message (fault : Fault) : String :=
  fault.kind.name ++ ": " ++ fault.detail

end Fault

end Pseudocode
