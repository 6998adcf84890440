import Pseudocode.Eval.Arithmetic

/-! What operators do to values. -/

namespace Pseudocode

namespace Value

/-- Whether two values may be joined outside a display list: one is a text, or both are of one
kind, or both are numbers. -/
def joinable (a b : Value) : Bool :=
  -- Whatever stands beside a text is shown as text.
  a.kind == .text || b.kind == .text || a.kind == b.kind || (a.isNumeric && b.isNumeric)

/-- Join two values. A display list joins any two that are there. Joining on two lines puts up with
a value that is not there, and then ends the line after the other one. -/
def join (anyPair : Bool) (op : JoinOp) (a b : Value) : Except Fault Value :=
  -- Only joining on two lines has a meaning when a value is missing.
  if a.isAbsent || b.isAbsent then
    match op with
    | .below => .ok (.text ((if a.isAbsent then b else a).display ++ "\n"))
    | .beside => .error (.nullOperand (.binary (.join op)))
  -- A display list asks nothing of the kinds.
  else if !anyPair && !joinable a b then .error (.typeMismatch (.join op a.kind b.kind))
  else
    match op with
    | .below => .ok (.text (a.display ++ "\n" ++ b.display))
    | .beside => .ok (.text (a.display ++ b.display))

/-- Whether a comparison that can only tell equal from unequal holds. -/
def compareEqual (op : CompareOp) (kind : Kind) (equal : Bool) : Except Fault Value :=
  if op.isEquality then .ok (.boolean (if op = .eq then equal else !equal))
  else .error (.typeMismatch (.unordered op kind))

/-- Compare two values that are there. An integer is compared with a float as a float. -/
def compare (op : CompareOp) (a b : Value) : Except Fault Value :=
  match a, b with
  -- Integers are compared exactly, as whole numbers.
  | .integer m, .integer n => .ok (.boolean (op.holds (Ord.compare m.toInt n.toInt)))
  -- Truth values and characters have no order.
  | .boolean p, .boolean q => compareEqual op .boolean (p == q)
  | .character c, .character d => compareEqual op .character (c == d)
  | _, _ =>
    -- What is left are two numbers, one of them a float at least, or no pair that can be compared.
    match a.toSingle?, b.toSingle? with
    | some x, some y => .ok (.boolean (op.holds (x.order y)))
    | _, _ => .error (.typeMismatch (.compare op a.kind b.kind))

/-- The truth value that an operand of a logical operator must be. -/
def asBoolean (op : LogicOp) : Value → Except Fault Bool
  | .boolean b => .ok b
  -- A missing value is noticed before its kind is.
  | .absent => .error (.nullOperand (.logic op))
  | other => .error (.typeMismatch (.logic op other.kind))

/-- Apply an operator to two values. -/
def applyBinary (op : BinaryOp) (a b : Value) : Except Fault Value :=
  match op with
  -- A name that is no operator is noticed before the operands are looked at.
  | .unknown symbol => .error (.unknownBinary symbol)
  | .logic op => do
    -- Both operands are looked at here, the left one first.
    let p ← a.asBoolean op
    let q ← b.asBoolean op
    return .boolean (match op with | .and => p && q | .or => p || q)
  | .join op => join false op a b
  | .compare cmp =>
    -- A missing value is noticed before the kinds of the operands are.
    if a.isAbsent || b.isAbsent then .error (.nullOperand (.binary op)) else compare cmp a b
  | .arith sum =>
    if a.isAbsent || b.isAbsent then .error (.nullOperand (.binary op)) else arith sum a b

/-- Put a sign before a value. -/
def applySign (sign : Sign) : Value → Except Fault Value
  -- The least integer has no negative, and wraps to itself.
  | .integer n => .ok (match sign with | .plus => .integer n | .minus => .ofInt (-n.toInt))
  | .float x => .ok (.float (match sign with | .plus => x | .minus => x.neg))
  | other => .error (.typeMismatch (.signed sign other.kind))

/-- Apply an operator to one value. -/
def applyUnary (op : UnaryOp) (a : Value) : Except Fault Value :=
  match op with
  | .unknown symbol => .error (.unknownUnary symbol)
  | .not =>
    match a with
    | .boolean b => .ok (.boolean !b)
    | .absent => .error (.nullOperand (.unary op))
    | other => .error (.typeMismatch (.negated other.kind))
  -- A sign asks for a number, and a missing value is noticed before that.
  | .sign sign => if a.isAbsent then .error (.nullOperand (.unary op)) else applySign sign a

end Value

end Pseudocode
