import Pseudocode.Eval.Expr

/-! Two other ways of evaluating an expression. As a display list it gives what it gives anyway,
unless that is a mismatch of kinds. And what it gives when both sides of every `AND` and `OR` are
looked at, it gives anyway. -/

namespace Pseudocode

/-- The second of two results is the first one, unless the first one is a failure that is excused.
-/
def AgreesUnless {α : Type} (excused : Failure → Prop) :
    Except Failure α → Except Failure α → Prop
  | .ok a, second => second = .ok a
  | .error failure, second => excused failure ∨ second = .error failure

namespace AgreesUnless

variable {α β : Type} {excused : Failure → Prop}

/-- A result agrees with itself. -/
theorem refl (result : Except Failure α) : AgreesUnless excused result result := by
  -- A value is the same on both sides, and a failure is the same without an excuse.
  cases result with
  | ok a => rfl
  | error failure => exact .inr rfl

/-- Two computations in turn agree when the parts do. -/
theorem bind {first first' : Except Failure α} {next next' : α → Except Failure β}
    (start : AgreesUnless excused first first')
    (rest : ∀ a, AgreesUnless excused (next a) (next' a)) :
    AgreesUnless excused (first >>= next) (first' >>= next') := by
  cases first with
  | ok a =>
    -- What the first parts give is one value, with which the second parts go on.
    cases start
    exact rest a
  | error failure =>
    -- The first part fails as a whole, and so does the other one if that is not excused.
    rcases start with allowed | rfl
    · exact .inl allowed
    · exact .inr rfl

end AgreesUnless

/-- A failure that is a mismatch of kinds. -/
def Failure.IsMismatch (failure : Failure) : Prop :=
  ∃ cause, failure = .fault (.typeMismatch cause)

/-- Two values that may be joined outside a display list are joined in the same way in one. -/
theorem Value.join_agrees (op : JoinOp) (a b : Value) :
    AgreesUnless Failure.IsMismatch (liftFault (join false op a b))
      (liftFault (join true op a b)) := by
  by_cases unfit : (a.isAbsent || b.isAbsent) = false ∧ joinable a b = false
  · -- The join fails outside a display list, with a mismatch, and any answer is excused.
    simp only [join, unfit]
    exact .inl ⟨_, rfl⟩
  · -- A value that is not there is treated alike in both.
    have same : join true op a b = join false op a b := by
      unfold join
      split
      · rfl
      · simp_all
    rw [same]
    exact .refl _

/-- Combinations of data agree when those of values do. -/
theorem Datum.combine_agrees {excused : Failure → Prop} {absentDecides : Bool}
    {join join' : Value → Value → Except Fault Value}
    (agrees : ∀ v w, AgreesUnless excused (liftFault (join v w)) (liftFault (join' v w)))
    (a b : Datum) :
    AgreesUnless excused (a.combine absentDecides join b) (a.combine absentDecides join' b) := by
  -- A missing left value may decide alone, and then the right one is not asked for.
  refine (AgreesUnless.refl a.toValue).bind fun v => ?_
  dsimp only
  split
  · exact agrees v .absent
  · exact (AgreesUnless.refl b.toValue).bind fun w => agrees v w

namespace Expr

/-- A display list agrees with its expression, unless that is a mismatch of kinds. -/
theorem evalDisplay_agrees (store : Store) (expr : Expr) :
    AgreesUnless Failure.IsMismatch (expr.eval store) (expr.evalDisplay store) := by
  induction expr with
  | binary op left right ihLeft ihRight =>
    -- Only the joins of the outermost chain are treated in another way.
    cases op with
    | join op =>
      refine ihLeft.bind fun a => ihRight.bind fun b => ?_
      exact (a.combine_agrees (Value.join_agrees op) b).bind fun v => .refl _
    | _ => exact .refl _
  | _ => exact .refl _

/-- Evaluation of a display list extends ordinary evaluation. Where that gives a datum, the list
gives the same one, and where it fails with anything but a mismatch of kinds, the list fails with
the same failure, so that the two differ only where ordinary evaluation ends in a mismatch. -/
theorem evalDisplay_extends (store : Store) (expr : Expr) :
    (∀ datum, expr.eval store = .ok datum → expr.evalDisplay store = .ok datum) ∧
    (∀ failure, expr.eval store = .error failure → ¬ failure.IsMismatch →
      expr.evalDisplay store = .error failure) ∧
    (expr.evalDisplay store ≠ expr.eval store →
      ∃ cause, expr.eval store = .error (.fault (.typeMismatch cause))) := by
  have agrees := evalDisplay_agrees store expr
  refine ⟨fun datum gives => ?_, fun failure fails other => ?_, fun different => ?_⟩
  · -- A datum is given by both.
    rwa [gives] at agrees
  · -- A failure that is no mismatch has no excuse.
    rw [fails] at agrees
    exact agrees.resolve_left other
  · -- Where the two differ, only a mismatch is left.
    cases result : expr.eval store with
    | ok datum =>
      rw [result] at agrees different
      exact absurd agrees different
    | error failure =>
      rw [result] at agrees different
      obtain ⟨cause, rfl⟩ := agrees.resolve_right different
      exact ⟨cause, rfl⟩

/-- A variable without a value ends one list with a line break and is a failure in another one. An
integer and a truth value are joined in a list only. -/
theorem evalDisplay_extends_absent :
    ∃ (store : Store) (given failing mixed : Expr),
      given.eval store = .ok (.value (.text "1a\n")) ∧
      given.evalDisplay store = .ok (.value (.text "1a\n")) ∧
      failing.eval store = .error (.fault (.nullOperand (.binary (.join .beside)))) ∧
      failing.evalDisplay store = .error (.fault (.nullOperand (.binary (.join .beside)))) ∧
      mixed.evalDisplay store = .ok (.value (.text "1TRUE")) ∧
      ∃ cause, mixed.eval store = .error (.fault (.typeMismatch cause)) := by
  let store : Store := ⟨[⟨.name "x", .known .int, .absent⟩]⟩
  let number : Expr := .literal (.value (.integer 1))
  let joined : Expr := .binary (.join .beside) number (.literal (.value (.text "a")))
  -- The missing value stands last, below the others.
  let given : Expr := .binary (.join .below) joined (.ident (.name "x"))
  let failing : Expr := .binary (.join .beside) joined (.ident (.name "x"))
  let mixed : Expr := .binary (.join .beside) number (.literal (.value (.boolean true)))
  have gives : given.eval store = .ok (.value (.text "1a\n")) := rfl
  have fails : failing.eval store =
    .error (.fault (.nullOperand (.binary (.join .beside)))) := rfl
  -- Each of the three parts of the statement is applied to one of the lists.
  refine ⟨store, given, failing, mixed, gives, (evalDisplay_extends store given).1 _ gives, fails,
    (evalDisplay_extends store failing).2.1 _ fails nofun, rfl,
    (evalDisplay_extends store mixed).2.2 nofun⟩

/-- What an expression gives when both sides of every `AND` and `OR` are looked at. -/
def evalEager (store : Store) : Expr → Except Failure Datum
  -- Names and operators with one operand are evaluated as always.
  | .literal content => .ok content
  | .ident label => do return .value (← liftFault (store.get label))
  | .newline => .ok (.value (.text "\n"))
  | .unary op operand => do
    let a ← operand.evalEager store
    -- Logic has no equation of its own here.
    return .value (← a.applyUnary op)
  | .binary op left right => do
    let a ← left.evalEager store
    let b ← right.evalEager store
    return .value (← a.applyBinary op b)
  | .stray defect => .error (.defect defect)

end Expr

/-- What a logical operator makes of two truth values. -/
def LogicOp.onBooleans (op : LogicOp) (p q : Bool) : Bool :=
  match op with
  | .and => p && q
  | .or => p || q

/-- An operand that a logical operator takes is a truth value. -/
theorem Datum.eq_of_asBoolean {op : LogicOp} {a : Datum} {p : Bool}
    (taken : a.asBoolean op = .ok p) : a = .value (.boolean p) := by
  -- Anything but a truth value is refused, as a defect or as a mismatch.
  cases a with
  | stray node => cases taken
  | value v =>
    cases v with
    | boolean b =>
      cases taken
      rfl
    | _ => cases taken

/-- A logical operator gives a value only for two truth values. -/
theorem Datum.applyBinary_logic_eq_ok {op : LogicOp} {a b : Datum} {v : Value}
    (applied : a.applyBinary (.logic op) b = .ok v) :
    ∃ p q, a = .value (.boolean p) ∧ b = .value (.boolean q) ∧
      v = .boolean (op.onBooleans p q) := by
  simp only [applyBinary, Bind.bind, Except.bind] at applied
  -- Both operands are asked for before anything is computed.
  cases first : a.asBoolean op with
  | error failure => simp [first] at applied
  | ok p =>
    cases second : b.asBoolean op with
    | error failure => simp [first, second] at applied
    | ok q =>
      simp only [first, second] at applied
      cases applied
      exact ⟨p, q, eq_of_asBoolean first, eq_of_asBoolean second, rfl⟩

namespace Expr

variable {store : Store} {left right : Expr}

/-- A logical operator between two expressions of truth values. -/
theorem eval_logic {p q : Bool} (op : LogicOp)
    (first : left.eval store = .ok (.value (.boolean p)))
    (second : right.eval store = .ok (.value (.boolean q))) :
    (Expr.binary (.logic op) left right).eval store =
      .ok (.value (.boolean (op.onBooleans p q))) := by
  -- If the left side decides, the result does not depend on the right one.
  simp only [Expr.eval, first, second]
  cases op <;> cases p <;> rfl

/-- Evaluation agrees with eager evaluation, whose failures are all excused. -/
theorem eval_agrees_evalEager (store : Store) (expr : Expr) :
    -- Without logic the two evaluations have the same equation.
    AgreesUnless (fun _ => True) (expr.evalEager store) (expr.eval store) := by
  induction expr with
  | unary op operand ih => exact ih.bind fun a => .refl _
  | binary op left right ihLeft ihRight =>
    cases op with
    | logic op =>
      rw [evalEager]
      -- Eager evaluation succeeds only with two truth values, of which one may decide.
      cases first : left.evalEager store with
      | error failure => exact .inl trivial
      | ok a =>
        cases second : right.evalEager store with
        | error failure => exact .inl trivial
        | ok b =>
          rw [first] at ihLeft
          rw [second] at ihRight
          simp only [Bind.bind, Except.bind]
          cases applied : a.applyBinary (.logic op) b with
          | error failure => exact .inl trivial
          | ok v =>
            obtain ⟨p, q, rfl, rfl, rfl⟩ := Datum.applyBinary_logic_eq_ok applied
            exact eval_logic op ihLeft ihRight
    | _ => exact ihLeft.bind fun a => ihRight.bind fun b => .refl _
  | _ => exact .refl _

/-- Evaluation that leaves out the right side of `AND` and `OR` when the left side decides gives
what eager evaluation gives, if that gives anything. So it fails only where eager evaluation fails
too. -/
theorem eval_of_evalEager (store : Store) (expr : Expr) :
    (∀ datum, expr.evalEager store = .ok datum → expr.eval store = .ok datum) ∧
    (∀ failure, expr.eval store = .error failure →
      ∃ other, expr.evalEager store = .error other) := by
  have agrees := eval_agrees_evalEager store expr
  cases eager : expr.evalEager store with
  -- Where eager evaluation gives something, so does the other, and it does not fail.
  | ok datum =>
    rw [eager] at agrees
    refine ⟨fun other same => ?_, fun failure fails => ?_⟩
    · -- The two data are one.
      rwa [← same]
    · rw [agrees] at fails
      cases fails
  -- Eager evaluation fails, and nothing is said about the other one.
  | error other => exact ⟨fun _ => nofun, fun _ _ => ⟨other, rfl⟩⟩

/-- A logical operator inside a comparison and another logical operator. An undeclared variable on
the side that is left out makes eager evaluation fail where the other does not. -/
theorem eval_of_evalEager_nested :
    ∃ (store : Store) (given lazy : Expr),
      given.evalEager store = .ok (.value (.boolean true)) ∧
      given.eval store = .ok (.value (.boolean true)) ∧
      lazy.eval store = .ok (.value (.boolean false)) ∧
      ∃ failure, lazy.evalEager store = .error failure := by
  let truth (b : Bool) : Expr := .literal (.value (.boolean b))
  let both (left right : Expr) : Expr := .binary (.logic .and) left right
  let either (left right : Expr) : Expr := .binary (.logic .or) left right
  let given : Expr :=
    either (.binary (.compare .eq) (both (truth false) (truth true)) (truth false))
      (.unary .not (truth true))
  have gives : given.evalEager .empty = .ok (.value (.boolean true)) := rfl
  exact ⟨.empty, given, both (truth false) (.ident (.name "x")), gives,
    (eval_of_evalEager .empty given).1 _ gives, rfl, _, rfl⟩

end Expr

end Pseudocode
