/-! The operators of expressions, and the symbols they are written with. -/

namespace Pseudocode

/-- Arithmetic operators. -/
inductive ArithOp where
  | add
  | sub
  | mul
  | div
  | rem
deriving DecidableEq, Repr

/-- Operators that join texts: side by side, or on two lines. -/
inductive JoinOp where
  | beside
  | below
deriving DecidableEq, Repr

/-- Comparisons. -/
inductive CompareOp where
  | eq
  | ne
  | gt
  | lt
  | ge
  | le
deriving DecidableEq, Repr

/-- Logical operators with two operands. -/
inductive LogicOp where
  | and
  | or
deriving DecidableEq, Repr

/-- Signs in front of a number. -/
inductive Sign where
  | plus
  | minus
deriving DecidableEq, Repr

/-- Operators with two operands. A tree that was not read from source may hold a symbol that no
operator has. -/
inductive BinaryOp where
  | arith (op : ArithOp)
  | join (op : JoinOp)
  | compare (op : CompareOp)
  | logic (op : LogicOp)
  | unknown (symbol : String)
deriving DecidableEq, Repr

/-- Operators with one operand. A tree that was not read from source may hold a symbol that no
operator has. -/
inductive UnaryOp where
  | sign (op : Sign)
  | not
  | unknown (symbol : String)
deriving DecidableEq, Repr

/-- The symbol of an arithmetic operator. -/
def ArithOp.symbol : ArithOp → String
  | .add => "+"
  | .sub => "-"
  | .mul => "*"
  | .div => "/"
  | .rem => "%"

/-- The symbol of a joining operator. -/
def JoinOp.symbol : JoinOp → String
  | .beside => "&"
  | .below => "$"

/-- The symbol of a comparison. -/
def CompareOp.symbol : CompareOp → String
  | .eq => "=="
  | .ne => "<>"
  | .gt => ">"
  | .lt => "<"
  | .ge => ">="
  | .le => "<="

/-- The word for a logical operator. -/
def LogicOp.symbol : LogicOp → String
  | .and => "AND"
  | .or => "OR"

/-- The symbol of a sign. -/
def Sign.symbol : Sign → String
  | .plus => "+"
  | .minus => "-"

/-- The symbol of an operator with two operands. -/
def BinaryOp.symbol : BinaryOp → String
  | .arith op => op.symbol
  | .join op => op.symbol
  | .compare op => op.symbol
  | .logic op => op.symbol
  | .unknown symbol => symbol

/-- The operator with two operands that a symbol stands for. -/
def BinaryOp.ofSymbol : String → BinaryOp
  -- Every symbol belongs to one operator, the bare line break and the signs apart.
  | "+" => .arith .add
  | "-" => .arith .sub
  | "*" => .arith .mul
  | "/" => .arith .div
  | "%" => .arith .rem
  | "&" => .join .beside
  | "$" => .join .below
  | "==" => .compare .eq
  | "<>" => .compare .ne
  | ">" => .compare .gt
  | "<" => .compare .lt
  | ">=" => .compare .ge
  | "<=" => .compare .le
  | "AND" => .logic .and
  | "OR" => .logic .or
  | symbol => .unknown symbol

/-- The symbol of an operator with one operand. -/
def UnaryOp.symbol : UnaryOp → String
  | .sign op => op.symbol
  | .not => "NOT"
  | .unknown symbol => symbol

/-- The operator with one operand that a symbol stands for. -/
def UnaryOp.ofSymbol : String → UnaryOp
  | "+" => .sign .plus
  | "-" => .sign .minus
  | "NOT" => .not
  | symbol => .unknown symbol

/-- Whether a comparison holds of two things in the given order. -/
def CompareOp.holds : CompareOp → Ordering → Bool
  | .eq, order => order == .eq
  | .ne, order => order != .eq
  | .gt, order => order == .gt
  -- The two comparisons that allow equality are the negations of the other two.
  | .lt, order => order == .lt
  | .ge, order => order != .lt
  | .le, order => order != .gt

/-- Whether a comparison only tells equal from unequal. -/
def CompareOp.isEquality : CompareOp → Bool
  | .eq | .ne => true
  | _ => false

end Pseudocode
