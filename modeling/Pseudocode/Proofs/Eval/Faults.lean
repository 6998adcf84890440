import Pseudocode.Eval.Expr
import Pseudocode.Proofs.Syntax.Parts

/-! Evaluation of expressions from source text: it gives values, and what it can meet are faults,
none of them about an operator that is not known. -/

namespace Pseudocode

variable {α β : Type}

/-- A fault that is not about an operator that is not known. -/
def Fault.Known (fault : Fault) : Prop :=
  fault.kind ≠ .unknownOperator

/-- The kinds of faults that computing with values and variables can meet. The others are about the
declaration of names, about the parts of statements and about operators that are not known. -/
def FaultKind.isOfValues : FaultKind → Bool
  -- These faults depend on values and variables only.
  | .undeclaredVariable | .typeMismatch | .invalidConversion => true
  | .divisionByZero | .numericOverflow | .nullOperand => true
  | .alreadyDeclared | .invalidCaseType | .missingBreakOnDefault | .misplacedBreak => false
  | .unknownOperator => false

/-- A computation can meet only faults of values. -/
def FaultsOfValues : Except Fault α → Prop
  | .ok _ => True
  | .error fault => fault.kind.isOfValues = true

namespace FaultsOfValues

/-- Two computations in turn meet the faults of both. -/
theorem bind {first : Except Fault α} {next : α → Except Fault β} (start : FaultsOfValues first)
    (rest : ∀ a, FaultsOfValues (next a)) : FaultsOfValues (first >>= next) := by
  -- A fault of the first computation is the fault of both.
  cases first with
  | error fault => exact start
  | ok a => exact rest a

/-- A computation whose result is changed meets the same faults. -/
theorem map {first : Except Fault α} {change : α → β} (start : FaultsOfValues first) :
    FaultsOfValues (first.map change) := by
  -- A change is made only to what has been given.
  cases first with
  | error fault => exact start
  | ok a => trivial

end FaultsOfValues

/-- Arithmetic on whole numbers meets only a division by zero. -/
theorem intArith_ofValues (op : ArithOp) (a b : Int) : FaultsOfValues (intArith op a b) := by
  -- Adding, subtracting and multiplying always succeed; the other two ask for a divisor.
  unfold intArith
  split
  · trivial
  · trivial
  · trivial
  · split
    · trivial
    · rfl
  · split
    · trivial
    · rfl

/-- Exact arithmetic on floats meets a remainder that there is none of. -/
theorem exactArith_ofValues (op : ArithOp) (x y : Single) (divisor : op = .div → 0 < y.mant) :
    FaultsOfValues (exactArith op x y divisor) := by
  -- Only a remainder is refused.
  cases op with
  -- There is no remainder of floats, and a quotient has its divisor.
  | rem => rfl
  | _ => trivial

/-- Arithmetic on floats may also leave the range of floats. -/
theorem floatArith_ofValues (op : ArithOp) (x y : Single) (divisor : op = .div → 0 < y.mant) :
    FaultsOfValues (floatArith op x y divisor) := by
  -- The exact result is rounded last, and that may leave the range.
  refine (exactArith_ofValues op x y divisor).bind fun exact => ?_
  dsimp only
  split
  · trivial
  · rfl

/-- Arithmetic with the number in a text meets the faults of that arithmetic. -/
theorem textArith_ofValues {text : String} {combine : Int → Except Fault Int}
    (ofValues : ∀ n, FaultsOfValues (combine n)) : FaultsOfValues (textArith text combine) :=
  -- What has been combined is written out, and that meets nothing.
  (ofValues _).bind fun _ => trivial

namespace Value

/-- Arithmetic with a text that holds no digits either joins or does not fit. -/
theorem digitlessArith_ofValues (op : ArithOp) (a b : Value) (text : String) :
    FaultsOfValues (digitlessArith op a b text) := by
  unfold digitlessArith
  -- Only joining has no need of digits.
  split
  · trivial
  · rfl

/-- Arithmetic on values meets only faults of values. -/
theorem arith_ofValues (op : ArithOp) (a b : Value) : FaultsOfValues (arith op a b) := by
  -- The kinds of the two values decide, and a text is asked for the number in it.
  unfold arith
  -- The number zero is refused at once.
  split
  · rfl
  · split
    · -- Two whole numbers.
      exact (intArith_ofValues _ _ _).map
    · -- A text and a whole number, of which one comes before the other.
      split
      · rfl
      · split
        · exact textArith_ofValues fun n => intArith_ofValues _ _ _
        · exact digitlessArith_ofValues _ _ _ _
    · split
      · rfl
      · split
        · exact textArith_ofValues fun n => intArith_ofValues _ _ _
        · exact digitlessArith_ofValues _ _ _ _
    · -- All other pairs have to be numbers of which one is a float.
      unfold mixedArith
      split
      · exact floatArith_ofValues _ _ _ _
      · rfl

/-- A comparison that only tells equal from unequal meets only faults of values. -/
theorem compareEqual_ofValues (op : CompareOp) (kind : Kind) (equal : Bool) :
    FaultsOfValues (compareEqual op kind equal) := by
  -- Less and greater are refused.
  unfold compareEqual
  split
  · trivial
  · rfl

/-- Comparing values meets only faults of values. -/
theorem compare_ofValues (op : CompareOp) (a b : Value) : FaultsOfValues (compare op a b) := by
  -- Numbers have an order, truth values and characters only equality, and no other pair fits.
  unfold compare
  split
  · trivial
  · exact compareEqual_ofValues _ _ _
  · exact compareEqual_ofValues _ _ _
  · -- What is left are numbers of which one is a float, or no pair that fits.
    split
    · trivial
    · rfl

/-- Joining values meets only faults of values. -/
theorem join_ofValues (anyPair : Bool) (op : JoinOp) (a b : Value) :
    FaultsOfValues (join anyPair op a b) := by
  -- A missing value is joined only where any pair of values may be.
  unfold join
  split
  · cases op with
    | below => trivial
    | beside => rfl
  · -- Both values are there, and outside a display list they have to fit.
    split
    · rfl
    · cases op <;> trivial

/-- Asking for a truth value meets only faults of values. -/
theorem asBoolean_ofValues (op : LogicOp) (a : Value) : FaultsOfValues (a.asBoolean op) := by
  cases a with
  | boolean b => trivial
  | _ => rfl

/-- A known operator meets only faults of values on two values. -/
theorem applyBinary_ofValues {op : BinaryOp} (known : op.Known) (a b : Value) :
    FaultsOfValues (applyBinary op a b) := by
  -- Missing operands are refused before the operator looks at what it is given.
  cases op with
  | arith op =>
    simp only [applyBinary]
    split
    · rfl
    · exact arith_ofValues op a b
  | join op => exact join_ofValues false op a b
  | compare op =>
    simp only [applyBinary]
    split
    · rfl
    · exact compare_ofValues op a b
  | logic op =>
    exact (asBoolean_ofValues op a).bind fun _ => (asBoolean_ofValues op b).bind fun _ => trivial
  | unknown symbol => exact absurd rfl (known symbol)

/-- A known operator meets only faults of values on one value. -/
theorem applyUnary_ofValues {op : UnaryOp} (known : op.Known) (a : Value) :
    FaultsOfValues (applyUnary op a) := by
  -- Only numbers have a sign, and only truth values a negation.
  cases op with
  | sign sign =>
    simp only [applyUnary]
    split
    · rfl
    · cases a with
      | integer n => trivial
      | float x => trivial
      | _ => rfl
  | not =>
    cases a with
    | boolean b => trivial
    | _ => rfl
  | unknown symbol => exact absurd rfl (known symbol)

/-- Bringing a value to a type meets only faults of values. -/
theorem convert_ofValues (target : VarType) (value : Value) :
    FaultsOfValues (value.convert target) := by
  unfold convert
  split
  -- A conversion either gives a value or is invalid.
  · trivial
  · rfl

end Value

/-- Reading an input line meets only faults of values. -/
theorem readInput_ofValues (target : VarType) (line : String) :
    FaultsOfValues (readInput target line) := by
  unfold readInput
  dsimp only
  -- A line that cannot be read is an invalid conversion, whatever it says.
  split
  · trivial
  · rfl

/-- A failure that a program from source text can meet: a known fault, or a loop without turns. -/
def Failure.Known : Failure → Prop
  | .fault met => met.Known
  | .defect _ => False
  | .unfinished => True

/-- A result is good, or a failure that a program from source text can meet. -/
def Within (good : α → Prop) : Except Failure α → Prop
  | .ok a => good a
  | .error failure => failure.Known

namespace Within

/-- Two computations in turn, where the second relies on what the first gives. -/
theorem bind {good : α → Prop} {good' : β → Prop} {first : Except Failure α}
    {next : α → Except Failure β} (start : Within good first)
    (rest : ∀ a, good a → Within good' (next a)) : Within good' (first >>= next) := by
  cases first with
  -- A failure of the first is one of both.
  | error failure => exact start
  | ok a => exact rest a start

/-- A fault of values is known. -/
theorem liftFault {result : Except Fault α} (ofValues : FaultsOfValues result) :
    Within (fun _ => True) (liftFault result) := by
  cases result with
  | error fault =>
    intro unknown
    -- The kind of an unknown operator is no kind of a value.
    simp [FaultsOfValues, unknown, FaultKind.isOfValues] at ofValues
  | ok a => trivial

end Within

namespace Datum

/-- A datum that is a value. -/
def IsValue (datum : Datum) : Prop :=
  ∃ value, datum = .value value

/-- A datum that is a value is taken as one. -/
theorem IsValue.toValue {datum : Datum} (isValue : datum.IsValue) :
    Within (fun _ => True) datum.toValue := by
  obtain ⟨value, rfl⟩ := isValue
  -- There is nothing to fail for a value.
  trivial

/-- Combining two values meets the faults of joining them. -/
theorem combine_known {absentDecides : Bool} {join : Value → Value → Except Fault Value}
    {a b : Datum} (left : a.IsValue) (right : b.IsValue)
    (ofValues : ∀ v w, FaultsOfValues (join v w)) :
    Within (fun _ => True) (combine absentDecides join a b) := by
  -- A missing left operand may decide alone, and then the right one is not asked for.
  refine left.toValue.bind fun v _ => ?_
  dsimp only
  split
  · exact .liftFault (ofValues v .absent)
  · exact right.toValue.bind fun w _ => .liftFault (ofValues v w)

/-- Asking a datum that is a value for a truth value meets only known faults. -/
theorem asBoolean_known (op : LogicOp) {a : Datum} (isValue : a.IsValue) :
    Within (fun _ => True) (a.asBoolean op) :=
  -- The datum is taken as a value first.
  isValue.toValue.bind fun v _ => .liftFault (Value.asBoolean_ofValues op v)

/-- A known operator meets only known faults on two data that are values. -/
theorem applyBinary_known {op : BinaryOp} {a b : Datum} (known : op.Known) (left : a.IsValue)
    (right : b.IsValue) : Within (fun _ => True) (applyBinary op a b) := by
  cases op with
  -- Logic asks both operands for truth values, and all other operators combine them.
  | unknown symbol => exact absurd rfl (known symbol)
  | join op => exact combine_known left right (Value.join_ofValues false op)
  | logic op =>
    exact (asBoolean_known op left).bind fun _ _ =>
      (asBoolean_known op right).bind fun _ _ => trivial
  | compare op => exact combine_known left right (Value.applyBinary_ofValues known)
  | arith op => exact combine_known left right (Value.applyBinary_ofValues known)

/-- A known operator meets only known faults on a datum that is a value. -/
theorem applyUnary_known {op : UnaryOp} {a : Datum} (known : op.Known) (isValue : a.IsValue) :
    Within (fun _ => True) (applyUnary op a) := by
  -- The operand is taken as a value first, whatever the operator.
  have applied : Within (fun _ => True) (do Pseudocode.liftFault ((← a.toValue).applyUnary op)) :=
    isValue.toValue.bind fun v _ => .liftFault (Value.applyUnary_ofValues known v)
  cases op with
  | unknown symbol => exact absurd rfl (known symbol)
  | not => exact applied
  | sign sign => exact applied

end Datum

namespace Expr

variable {store : Store}

/-- Looking up a variable meets only an undeclared name. -/
theorem lookup_ofValues (label : Label) : FaultsOfValues (store.lookup label) := by
  -- The variable is there or it is not.
  unfold Store.lookup
  split
  · trivial
  · rfl

/-- The result of an operator is a value. -/
theorem within_value {result : Except Failure Value} (known : Within (fun _ => True) result) :
    Within Datum.IsValue (do return .value (← result)) :=
  known.bind fun v _ => ⟨v, rfl⟩

/-- An expression from source text gives a value or meets a known fault. -/
theorem eval_known (expr : Expr) (sourced : expr.Sourced) :
    Within Datum.IsValue (expr.eval store) := by
  -- The cases are those of evaluation, with logic operators apart from the others.
  fun_induction eval store expr with
  -- A literal from source text is a value.
  | case1 content => exact sourced
  | case2 label => exact within_value (.liftFault (lookup_ofValues label).map)
  | case3 => exact ⟨_, rfl⟩
  -- What the operand gives is a value, and the operator is a known one.
  | case4 op operand ih =>
    exact (ih sourced.2).bind fun a isValue =>
      within_value (Datum.applyUnary_known sourced.1 isValue)
  | case5 op left right ihLeft ihRight =>
    -- The left side may decide alone, and else the right side does.
    refine (ihLeft sourced.2.1).bind fun a leftValue => ?_
    refine (Datum.asBoolean_known op leftValue).bind fun p _ => ?_
    split
    · exact ⟨_, rfl⟩
    · exact ⟨_, rfl⟩
    · refine (ihRight sourced.2.2).bind fun b rightValue => ?_
      exact (Datum.asBoolean_known op rightValue).bind fun q _ => ⟨_, rfl⟩
  -- Both sides are evaluated, from the left.
  | case6 op left right _ ihLeft ihRight =>
    refine (ihLeft sourced.2.1).bind fun a leftValue => ?_
    refine (ihRight sourced.2.2).bind fun b rightValue => ?_
    exact within_value (Datum.applyBinary_known sourced.1 leftValue rightValue)
  -- Source text leaves no place empty.
  | case7 defect => exact sourced.elim

/-- A display list from source text gives a value or meets a known fault. -/
theorem evalDisplay_known (expr : Expr) (sourced : expr.Sourced) :
    Within Datum.IsValue (expr.evalDisplay store) := by
  -- Only a chain of joins is treated in its own way; below it, evaluation is the usual one.
  fun_induction evalDisplay store expr with
  | case1 op left right ihLeft ihRight =>
    -- Both sides of a join are display lists themselves.
    refine (ihLeft sourced.2.1).bind fun a leftValue => ?_
    refine (ihRight sourced.2.2).bind fun b rightValue => ?_
    exact within_value (Datum.combine_known leftValue rightValue (Value.join_ofValues true op))
  | case2 other => exact other.eval_known sourced

end Expr

end Pseudocode
