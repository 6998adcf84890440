import Pseudocode.Eval.Datum
import Pseudocode.Store
import Pseudocode.Syntax.Tree

/-! What expressions give. -/

namespace Pseudocode

/-- What an expression gives. The right side of `AND` and `OR` is not looked at when the left side
decides. -/
def Expr.eval (store : Store) : Expr → Except Failure Datum
  | .literal content => .ok content
  | .ident label => do return .value (← liftFault (store.get label))
  -- A new line is a text of one character.
  | .newline => .ok (.value (.text "\n"))
  | .unary op operand => do
    let a ← operand.eval store
    return .value (← a.applyUnary op)
  -- Logic comes before the other operators, because it may leave out its right side.
  | .binary (.logic op) left right => do
    let p ← (← left.eval store).asBoolean op
    match op, p with
    | .and, false => return .value (.boolean false)
    | .or, true => return .value (.boolean true)
    -- The right side is all that the result depends on.
    | _, _ => return .value (.boolean (← (← right.eval store).asBoolean op))
  | .binary op left right => do
    -- Both operands are found before either of them is looked at.
    let a ← left.eval store
    let b ← right.eval store
    return .value (← a.applyBinary op b)
  | .stray defect => .error (.defect defect)

/-- What a display list gives, whose outermost joins accept any two values. -/
def Expr.evalDisplay (store : Store) : Expr → Except Failure Datum
  -- Only the outermost joins are meant, and parentheses make no difference to them.
  | .binary (.join op) left right => do
    let a ← left.evalDisplay store
    let b ← right.evalDisplay store
    return .value (← a.join true op b)
  -- Anything else is an item, and is found as in any expression.
  | other => other.eval store

end Pseudocode
