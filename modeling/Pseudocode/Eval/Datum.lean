import Pseudocode.Eval.Apply
import Pseudocode.Failure

/-! What operators do to data, which may turn out to be no values. -/

namespace Pseudocode

namespace Datum

/-- The value that a datum must be. -/
def toValue : Datum → Except Failure Value
  | .value v => .ok v
  | .stray node => malformed node

/-- Combine two data. The first is looked at before the second, and the second not at all when the
first is absent and that alone decides. -/
def combine (absentDecides : Bool) (join : Value → Value → Except Fault Value) (a b : Datum) :
    Except Failure Value := do
  let left ← a.toValue
  -- The absence of the first operand alone decides, and the second may be anything.
  let right ← if left.isAbsent && absentDecides then .ok .absent else b.toValue
  liftFault (join left right)

/-- Join two data. Only joining on two lines shows what stands beside an absent value. -/
def join (anyPair : Bool) (op : JoinOp) (a b : Datum) : Except Failure Value :=
  -- Joining beside asks for both values, and so the first decides alone if it is missing.
  combine (op == .beside) (Value.join anyPair op) a b

/-- The truth value that an operand of a logical operator must be. -/
def asBoolean (op : LogicOp) (a : Datum) : Except Failure Bool := do
  liftFault ((← a.toValue).asBoolean op)

/-- Apply an operator to two data. An operator that is not known is noticed before they are. -/
def applyBinary (op : BinaryOp) (a b : Datum) : Except Failure Value :=
  match op with
  | .unknown symbol => .error (.fault (.unknownBinary symbol))
  -- Joins and logic have ways of their own with what is missing.
  | .join op => join false op a b
  | .logic op => do
    let p ← a.asBoolean op
    let q ← b.asBoolean op
    return .boolean (match op with | .and => p && q | .or => p || q)
  -- Both values must be there, so that the first decides when it is missing.
  | .compare _ | .arith _ => combine true (Value.applyBinary op) a b

/-- Apply an operator to one datum. An operator that is not known is noticed before it is. -/
def applyUnary (op : UnaryOp) (a : Datum) : Except Failure Value :=
  match op with
  | .unknown symbol => .error (.fault (.unknownUnary symbol))
  -- An operand that is no value is noticed before the operator is applied.
  | .not | .sign _ => do liftFault ((← a.toValue).applyUnary op)

end Datum

end Pseudocode
