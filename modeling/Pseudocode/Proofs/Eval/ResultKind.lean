import Pseudocode.Proofs.Store.View

/-! Kinds of results: what kind of value an expression gives is known from the kinds of the
variables alone, and so it never depends on what they hold. -/

namespace Pseudocode

/-- The kind of a datum, if it is a value. -/
def Datum.kind? : Datum → Option Kind
  | .value v => some v.kind
  | .stray _ => none

/-- The kind of the value that the variable of a label holds, if it calls one. -/
def Store.kind? (store : Store) (label : Label) : Option Kind :=
  (store.view label).map fun told => told.2.kind

/-- The kind that arithmetic gives for operands of two kinds. With a text it is text, whether the
digits of the text are computed with or the operands are joined. -/
def Kind.arithmetic : Kind → Kind → Kind
  | .integer, .integer => .integer
  | .text, _ | _, .text => .text
  | _, _ => .float

/-- The kind of what an expression gives, from the kinds of the variables. Where there is none, the
expression gives no value. -/
def Expr.resultKind? (kinds : Label → Option Kind) : Expr → Option Kind
  | .literal content => content.kind?
  | .ident label => kinds label
  | .newline => some .text
  | .unary .not _ => some .boolean
  | .unary (.sign _) operand => operand.resultKind? kinds
  | .binary (.arith _) left right => do
    return .arithmetic (← left.resultKind? kinds) (← right.resultKind? kinds)
  | .binary (.join _) _ _ => some .text
  -- The right side of a logical operator may have no kind, as it may not be looked at.
  | .binary (.compare _) _ _ | .binary (.logic _) _ _ => some .boolean
  -- Nothing can be said of what never gives a value.
  | .unary (.unknown _) _ | .binary (.unknown _) _ _ | .stray _ => none

/-- What a computation gives is good, if it gives anything. -/
def GivesOnly {ε α : Type} (good : α → Prop) : Except ε α → Prop
  | .ok a => good a
  | .error _ => True

namespace GivesOnly

variable {ε α β : Type} {good : α → Prop} {good' : β → Prop}

/-- Two computations in turn, where the second relies on what the first gives. -/
theorem bind {first : Except ε α} {next : α → Except ε β} (start : GivesOnly good first)
    (rest : ∀ a, good a → GivesOnly good' (next a)) : GivesOnly good' (first >>= next) := by
  -- If there is no first result, nothing has to be shown.
  cases first with
  | error failure => trivial
  | ok a => exact rest a start

/-- A computation whose result is changed into a good one. -/
theorem map {first : Except ε α} {change : α → β} (changed : ∀ a, good' (change a)) :
    GivesOnly good' (first.map change) := by
  cases first with
  | error failure => trivial
  | ok a => exact changed a

/-- What is good about a result is good about it as a result of a run. -/
theorem liftFault {result : Except Fault α} (gives : GivesOnly good result) :
    GivesOnly good (liftFault result) := by
  cases result with
  | error fault => trivial
  | ok a => exact gives

/-- Nothing is asked of what a computation gives. -/
theorem any (result : Except ε α) : GivesOnly (fun _ => True) result := by
  -- A result is a value, of which nothing is asked, or a failure.
  cases result <;> trivial

/-- What a computation gives is good. -/
theorem of_eq_ok {result : Except ε α} {a : α} (gives : GivesOnly good result)
    (done : result = .ok a) : good a := by
  -- The result is the one that has been given.
  rwa [done] at gives

end GivesOnly

/-- A result is a value of the given kind, if it is any. Without a kind it must be none. -/
abbrev GivesKind {ε : Type} (kind : Option Kind) : Except ε Value → Prop :=
  GivesOnly fun v => kind = some v.kind

/-- Arithmetic on floats gives floats. -/
theorem floatArith_kind (op : ArithOp) (x y : Single) (divisor : op = .div → 0 < y.mant) :
    GivesKind (some .float) (floatArith op x y divisor) := by
  unfold floatArith
  -- Whatever the exact result is, it is rounded next.
  refine (GivesOnly.any _).bind fun exact _ => ?_
  -- A result that is too large is a fault, and any other one is a float.
  dsimp only
  split
  · rename_i value rounded
    obtain ⟨y, -, rfl⟩ := Option.map_eq_some_iff.mp rounded
    rfl
  · trivial

/-- Arithmetic on the number in a text gives texts. -/
theorem textArith_kind (text : String) (combine : Int → Except Fault Int) :
    GivesKind (some .text) (textArith text combine) :=
  (GivesOnly.any _).bind fun _ _ => rfl

namespace Value

/-- Arithmetic with a text without digits gives texts. -/
theorem digitlessArith_kind (op : ArithOp) (a b : Value) (text : String) :
    GivesKind (some .text) (digitlessArith op a b text) := by
  unfold digitlessArith
  -- Only addition has a result, and that is a text.
  split
  · rfl
  · trivial

/-- Arithmetic between a text and an integer gives texts, whether or not the text holds a digit. -/
theorem textOperand_kind {op : ArithOp} {a b : Value} {text : String} {cause : Mismatch}
    {combine : Int → Except Fault Int} :
    GivesKind (some .text)
      (if op = .rem then .error (.typeMismatch cause)
        else if hasDigit text then textArith text combine
        else digitlessArith op a b text) := by
  -- The three rules for such operands give a text each, or fail.
  split
  · trivial
  · split
    · exact textArith_kind text combine
    · exact digitlessArith_kind op a b text

/-- Only numbers are brought to a float. -/
theorem eq_of_toSingle? {a : Value} {x : Single} (single : a.toSingle? = some x) :
    (∃ n, a = .integer n) ∨ a = .float x := by
  -- Values that are no numbers have no form as floats.
  cases a with
  | integer n => exact .inl ⟨n, rfl⟩
  | float y =>
    cases single
    exact .inr rfl
  | _ => cases single

/-- Arithmetic gives the kind that belongs to those of its operands. -/
theorem arith_kind (op : ArithOp) (a b : Value) :
    GivesKind (some (.arithmetic a.kind b.kind)) (arith op a b) := by
  unfold arith
  split
  -- Division by zero gives nothing.
  · trivial
  · -- The rules are gone through in their order: two integers, a text on either side, floats.
    split
    · rename_i same
      cases same
      -- Two integers give an integer, in whatever way they are combined.
      exact GivesOnly.map fun n => rfl
    · rename_i same
      cases same
      exact textOperand_kind
    · rename_i same
      cases same
      exact textOperand_kind
    · rename_i notIntegers _ _
      unfold mixedArith
      split
      · -- Both operands are numbers, and one of them is no integer.
        rename_i x y left right
        rcases eq_of_toSingle? left with ⟨m, rfl⟩ | rfl
        · rcases eq_of_toSingle? right with ⟨n, rfl⟩ | rfl
          · exact (notIntegers m n rfl).elim
          · exact floatArith_kind op x y _
        · rcases eq_of_toSingle? right with ⟨n, rfl⟩ | rfl
          · exact floatArith_kind op x y _
          · exact floatArith_kind op x y _
      -- At least one of the operands is no number, and that is a mismatch.
      · trivial

/-- What tells equal from unequal is a truth value. -/
theorem compareEqual_kind (op : CompareOp) (kind : Kind) (equal : Bool) :
    GivesKind (some .boolean) (compareEqual op kind equal) := by
  -- Equality and its negation have an answer, and an order has none.
  unfold compareEqual
  split
  · rfl
  · trivial

/-- Comparing gives a truth value. -/
theorem compare_kind (op : CompareOp) (a b : Value) :
    GivesKind (some .boolean) (compare op a b) := by
  -- Whatever can be compared at all, the answer is yes or no.
  unfold compare
  split
  · rfl
  · exact compareEqual_kind _ _ _
  · exact compareEqual_kind _ _ _
  · split
    · rfl
    · trivial

/-- Joining gives a text, also where one of the values is not there. -/
theorem join_kind (anyPair : Bool) (op : JoinOp) (a b : Value) :
    GivesKind (some .text) (join anyPair op a b) := by
  unfold join
  split
  -- A value that is not there is joined by a line break only.
  · cases op with
    | below => rfl
    | beside => trivial
  -- Two values that may be joined give a text, with or without a line break.
  · split
    · trivial
    · cases op <;> rfl

/-- A sign keeps the kind of what it stands before. -/
theorem applySign_kind (sign : Sign) (a : Value) : GivesKind (some a.kind) (applySign sign a) := by
  -- Only numbers have a sign.
  cases a with
  | integer n => cases sign <;> rfl
  | float x => rfl
  | _ => trivial

end Value

namespace Datum

/-- A datum that is taken as a value is one of its kind. -/
theorem toValue_kind (a : Datum) : GivesKind a.kind? a.toValue := by
  -- A node that is no value gives nothing.
  cases a with
  | value v => rfl
  | stray node => trivial

/-- Combining two data gives only what combining two values of their kinds does, where a value on
the left that is not there may make up for a datum on the right that is no value. -/
theorem combine_gives {good : Value → Prop} {absentDecides : Bool}
    {join : Value → Value → Except Fault Value} {a b : Datum}
    (joined : ∀ v w, a.kind? = some v.kind → (v = .absent ∨ b.kind? = some w.kind) →
      GivesOnly good (join v w)) : GivesOnly good (combine absentDecides join a b) := by
  -- The left datum comes first, since it may decide alone.
  refine a.toValue_kind.bind fun v left => ?_
  dsimp only
  split
  · -- The left value is not there, and decides.
    rename_i decided
    simp only [Bool.and_eq_true, Value.isAbsent_iff] at decided
    exact .liftFault (joined v .absent left (.inl decided.1))
  · exact b.toValue_kind.bind fun w right => .liftFault (joined v w left (.inr right))

/-- A negation gives a truth value. -/
theorem applyUnary_not_kind (a : Datum) : GivesKind (some .boolean) (a.applyUnary .not) := by
  -- Only a truth value can be negated.
  refine a.toValue_kind.bind fun v _ => .liftFault ?_
  cases v with
  | boolean b => rfl
  | _ => trivial

/-- A sign gives a value of the kind of its operand. -/
theorem applyUnary_sign_kind (sign : Sign) (a : Datum) :
    GivesKind a.kind? (a.applyUnary (.sign sign)) := by
  refine a.toValue_kind.bind fun v same => .liftFault ?_
  -- The kind of the datum is that of the value it is taken as.
  rw [same]
  unfold Value.applyUnary
  dsimp only
  split
  · trivial
  · exact v.applySign_kind sign

/-- Arithmetic gives a value of the kind that belongs to those of its operands. -/
theorem applyBinary_arith_kind (op : ArithOp) (a b : Datum) :
    GivesKind (do return .arithmetic (← a.kind?) (← b.kind?)) (a.applyBinary (.arith op) b) := by
  refine combine_gives fun v w left right => ?_
  simp only [Value.applyBinary]
  split
  · trivial
  · -- The left value is there, so that the right one has been looked at.
    rename_i present
    simp only [Bool.or_eq_true, Value.isAbsent_iff, not_or] at present
    rw [left, right.resolve_left present.1]
    exact v.arith_kind op w

/-- Comparing gives a truth value. -/
theorem applyBinary_compare_kind (op : CompareOp) (a b : Datum) :
    GivesKind (some .boolean) (a.applyBinary (.compare op) b) := by
  refine combine_gives fun v w _ _ => ?_
  simp only [Value.applyBinary]
  -- A missing operand is a fault, and all others are compared.
  split
  · trivial
  · exact Value.compare_kind op v w

/-- Joining gives a text, in a display list and outside of one. -/
theorem join_kind (anyPair : Bool) (op : JoinOp) (a b : Datum) :
    GivesKind (some .text) (a.join anyPair op b) :=
  -- The kinds of the operands make no difference.
  combine_gives fun v w _ _ => Value.join_kind anyPair op v w

end Datum

namespace Expr

/-- An expression gives a datum of the kind of the value that it is made of. -/
theorem givesOnly_return {kind : Option Kind} {result : Except Failure Value}
    (gives : GivesKind kind result) :
    GivesOnly (fun datum : Datum => datum.kind? = kind) (do return .value (← result)) :=
  -- The kind is that of the value, which the datum holds.
  gives.bind fun _ same => same.symm

/-- What an expression gives is of the kind that is found for it from the kinds of the variables. -/
theorem eval_kind (store : Store) (expr : Expr) :
    GivesOnly (fun datum => datum.kind? = expr.resultKind? store.kind?) (expr.eval store) := by
  -- The induction is on the expression, and each operator has its own lemma above.
  induction expr with
  | literal content => rfl
  | ident label =>
    rw [eval, Store.get_eq]
    refine givesOnly_return (.liftFault ?_)
    -- A label that calls no variable is a fault.
    cases told : store.view label with
    | none => trivial
    | some found => simp only [GivesOnly, resultKind?, Store.kind?, told, Option.map_some]
  | newline => rfl
  | unary op operand ih =>
    rw [eval]
    -- The operand is evaluated first; its kind matters only for a sign.
    refine ih.bind fun a inferred => ?_
    cases op with
    | unknown symbol => trivial
    | not => exact givesOnly_return a.applyUnary_not_kind
    | sign sign =>
      rw [resultKind?, ← inferred]
      exact givesOnly_return (a.applyUnary_sign_kind sign)
  | binary op left right ihLeft ihRight =>
    cases op with
    | logic op =>
      -- Whichever side decides, the result is a truth value.
      refine (GivesOnly.any _).bind fun a _ => ?_
      refine (GivesOnly.any _).bind fun p _ => ?_
      split
      · rfl
      · rfl
      · refine (GivesOnly.any _).bind fun b _ => ?_
        exact (GivesOnly.any _).bind fun q _ => rfl
    | arith op =>
      -- Both kinds are known from the induction, and the rule for arithmetic combines them.
      refine ihLeft.bind fun a first => ihRight.bind fun b second => ?_
      rw [resultKind?, ← first, ← second]
      exact givesOnly_return (a.applyBinary_arith_kind op b)
    | join op =>
      exact ihLeft.bind fun a _ => ihRight.bind fun b _ => givesOnly_return (a.join_kind false op b)
    | compare op =>
      refine ihLeft.bind fun a _ => ihRight.bind fun b _ => ?_
      exact givesOnly_return (a.applyBinary_compare_kind op b)
    -- An operator that is not known gives nothing.
    | unknown symbol => exact ihLeft.bind fun a _ => ihRight.bind fun b _ => trivial
  | stray defect => trivial

/-- What a display list gives is of that kind too. -/
theorem evalDisplay_kind (store : Store) (expr : Expr) :
    GivesOnly (fun datum => datum.kind? = expr.resultKind? store.kind?)
      (expr.evalDisplay store) := by
  induction expr with
  | binary op left right ihLeft ihRight =>
    -- Only a join is treated in a way of its own, and that gives a text.
    cases op with
    | join op =>
      exact ihLeft.bind fun a _ => ihRight.bind fun b _ => givesOnly_return (a.join_kind true op b)
    | _ => exact eval_kind store _
  | _ => exact eval_kind store _

end Expr

/-- A variable takes what is of the kind of its type, and nothing else. -/
theorem Store.exists_assign_iff {store : Store} {label : Label} {datum : Datum} :
    (∃ next, store.assign label datum = .ok next) ↔
      ∃ type, store.typing label = .ok (.known type) ∧ datum.kind? = some type.kind := by
  -- What an assignment does is decided by the store and the datum.
  rw [assign_eq, typing_eq]
  rcases store.view label with _ | ⟨typing, held⟩
  · simp [admittedValue, Except.map]
  · cases datum with
    | stray node => simp [admittedValue, malformed, Except.map, Datum.kind?]
    | value v =>
      cases typing with
      | stray node => simp [admittedValue, malformed, Except.map]
      | known type =>
        simp only [admittedValue, Datum.kind?]
        -- The kinds are compared, and there is nothing else to be refused.
        by_cases fits : v.kind = type.kind
        · simp [fits, Except.map]
        · simp [fits, Except.map]

namespace Expr

/-- The kind of a result depends only on the kinds of the variables. In two stores with the same
variables, which hold values of the same kinds, whatever an expression gives in both of them is of
one kind, as an expression and as a display list. So it may be assigned to a variable in both of
them or in neither. -/
theorem resultKind_determined {store store' : Store}
    (same : ∀ label, store'.kind? label = store.kind? label) {expr : Expr} {datum datum' : Datum} :
    (expr.eval store = .ok datum → expr.eval store' = .ok datum' → datum'.kind? = datum.kind?) ∧
    (expr.evalDisplay store = .ok datum → expr.evalDisplay store' = .ok datum' →
      datum'.kind? = datum.kind?) ∧
    ∀ label, store'.typing label = store.typing label →
      expr.eval store = .ok datum → expr.eval store' = .ok datum' →
        ((∃ next, store'.assign label datum' = .ok next) ↔
          ∃ next, store.assign label datum = .ok next) := by
  -- The kinds of the variables are one function, so that the two results have one kind.
  have kinds : store'.kind? = store.kind? := funext same
  have evaluated (gives : expr.eval store = .ok datum) (gives' : expr.eval store' = .ok datum') :
      datum'.kind? = datum.kind? := by
    rw [(expr.eval_kind store).of_eq_ok gives, (expr.eval_kind store').of_eq_ok gives', kinds]
  refine ⟨evaluated, fun gives gives' => ?_, fun label typing gives gives' => ?_⟩
  · -- A display list has the same kind of result.
    rw [(expr.evalDisplay_kind store).of_eq_ok gives,
      (expr.evalDisplay_kind store').of_eq_ok gives', kinds]
  · -- Whether a variable takes a datum depends on its kind only.
    rw [Store.exists_assign_iff, Store.exists_assign_iff, typing, evaluated gives gives']

/-- A text with a digit is computed with and one without is joined. Both results are texts, so that
the variable takes the second one as it takes the first. -/
theorem resultKind_determined_text :
    ∃ (store store' : Store) (expr : Expr),
      (∀ label, store'.kind? label = store.kind? label) ∧
      store'.typing (.name "t") = store.typing (.name "t") ∧
      expr.eval store = .ok (.value (.text "a8")) ∧
      expr.eval store' = .ok (.value (.text "ab1")) ∧
      ∃ next, store'.assign (.name "t") (.value (.text "ab1")) = .ok next := by
  let holding (text : String) : Store := ⟨[⟨.name "t", .known .string, .text text⟩]⟩
  let expr : Expr := .binary (.arith .add) (.ident (.name "t")) (.literal (.value (.integer 1)))
  have same : ∀ label, (holding "ab").kind? label = (holding "a7").kind? label := by
    intro label
    -- There is one variable, and both of its values are texts.
    simp only [holding, Store.kind?, Store.view, Store.find?, List.find?_singleton]
    split <;> rfl
  have computed : expr.eval (holding "a7") = .ok (.value (.text "a8")) := rfl
  have joined : expr.eval (holding "ab") = .ok (.value (.text "ab1")) := rfl
  have alike := (resultKind_determined same).2.2 (.name "t") rfl computed joined
  exact ⟨holding "a7", holding "ab", expr, same, rfl, computed, joined, alike.mpr ⟨_, rfl⟩⟩

end Expr

end Pseudocode
