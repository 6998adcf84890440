import Pseudocode.Proofs.Eval.FloatArithmetic
import Pseudocode.Proofs.Eval.TextArithmetic
import Pseudocode.Proofs.Value.Settled

/-! Division by zero: which divisors denote zero, and which of them are refused as such. A number is
noticed before the kinds are, but a text only when an integer is divided by it. -/

namespace Pseudocode

/-- A value denotes zero: it is the integer zero, a float zero of either sign, or a text whose first
run of digits is zero. -/
inductive Value.DenotesZero : Value → Prop where
  | integer : DenotesZero (.integer 0)
  | float (negative : Bool) : DenotesZero (.float (.zero .single negative))
  | text {text : String} {before run after : List Char}
      (first : FirstRun text.toList before run after) (zero : Nat.ofDigitChars 10 run 0 = 0) :
      DenotesZero (.text text)

/-- Arithmetic on whole numbers refuses a divisor of zero only. -/
theorem intArith_eq_divisionByZero {op : ArithOp} {a b : Int} :
    intArith op a b = .error .divisionByZero ↔ op.divides = true ∧ b = 0 := by
  -- The result of whole numbers is known, and only one branch of it fails.
  rw [intArith_eq]
  split <;> simp [*]

/-- Arithmetic on floats refuses no divisor. -/
theorem floatArith_ne_divisionByZero (op : ArithOp) (x y : Single)
    (divisor : op = .div → 0 < y.mant) : floatArith op x y divisor ≠ .error .divisionByZero := by
  unfold floatArith
  cases op with
  | rem => simp [exactArith, Bind.bind, Except.bind]
  | _ =>
    -- What may still fail is the rounding of the result.
    simp only [exactArith, Bind.bind, Except.bind]
    split <;> simp

/-- Arithmetic on the number in a text refuses what the arithmetic on that number does. -/
theorem textArith_eq_divisionByZero {text : String} {combine : Int → Except Fault Int} :
    textArith text combine = .error .divisionByZero ↔
      combine (Nat.ofDigitChars 10 (digitRun text.toList) 0) = .error .divisionByZero := by
  rw [textArith]
  -- The number is combined first, and its fault is that of the whole.
  cases combine (Nat.ofDigitChars 10 (digitRun text.toList) 0) with
  | error fault => simp [Bind.bind, Except.bind]
  | ok result => simp [Bind.bind, Except.bind, Pure.pure, Except.pure]

namespace Value

/-- Whether a value is a text whose number is zero. -/
def isZeroText : Value → Bool
  | .text s => hasDigit s && Nat.ofDigitChars 10 (digitRun s.toList) 0 == 0
  | _ => false

/-- The values that denote zero are the number zero and the texts whose number is zero. -/
theorem denotesZero_iff {b : Value} :
    b.DenotesZero ↔ b.isZero = true ∨ b.isZeroText = true := by
  constructor
  -- A number of zero is noticed as such, and a text by its first digits.
  · rintro (_ | _ | ⟨first, zero⟩)
    · exact .inl rfl
    · exact .inl rfl
    · exact .inr (by simp [isZeroText, first.hasDigit, first.digitRun_eq, zero])
  -- What is noticed is the integer zero, one of the two float zeros, or such a text.
  · intro zero
    cases b with
    | integer n =>
      obtain rfl := toInt_eq_zero.mp (by simpa [isZero, isZeroText] using zero)
      exact .integer
    | float x =>
      rw [Single.eq_zero x (by simpa [isZero, isZeroText] using zero)]
      exact .float _
    | text s =>
      obtain ⟨digit, zero⟩ : hasDigit s = true ∧ Nat.ofDigitChars 10 (digitRun s.toList) 0 = 0 := by
        simpa [isZero, isZeroText] using zero
      obtain ⟨before, run, after, first⟩ := FirstRun.exists_of_digit (List.any_eq_true.mp digit)
      exact .text first (by rwa [first.digitRun_eq] at zero)
    | _ => simp [isZero, isZeroText] at zero

/-- Arithmetic between a text and an integer, in either order, refuses a division by zero that it
comes to with the number of the text. -/
theorem textOperand_eq_divisionByZero {op : ArithOp} {a b : Value} {text : String}
    {cause : Mismatch} {combine : Int → Except Fault Int} :
    (if op = .rem then .error (.typeMismatch cause)
      else if hasDigit text then textArith text combine
      -- A remainder is not asked of a text, and a text without digits is not divided.
      else digitlessArith op a b text) = .error .divisionByZero ↔
    op ≠ .rem ∧ hasDigit text = true ∧
      combine (Nat.ofDigitChars 10 (digitRun text.toList) 0) = .error .divisionByZero := by
  by_cases rem : op = .rem
  · simp [rem]
  · by_cases digit : hasDigit text = true
    · simp [rem, digit, textArith_eq_divisionByZero]
    · have joined : digitlessArith op a b text ≠ .error .divisionByZero := by
        unfold digitlessArith
        split <;> simp
      simp [rem, digit, joined]

/-- Arithmetic on values refuses the number zero as a divisor, whatever it is to divide, and a text
whose number is zero when it is to divide an integer. -/
theorem arith_eq_divisionByZero {op : ArithOp} {a b : Value} :
    arith op a b = .error .divisionByZero ↔ op.divides = true ∧
      (b.isZero = true ∨ op = .div ∧ a.kind = .integer ∧ b.isZeroText = true) := by
  unfold arith
  by_cases refused : op.divides = true ∧ b.isZero = true
  · -- The number zero is noticed before anything else.
    rw [dif_pos (refused.imp_left ArithOp.divides_iff.mp)]
    simp [refused]
  · rw [dif_neg (mt (And.imp_left ArithOp.divides_iff.mpr) refused)]
    -- Two integers divide by zero only where that has been noticed.
    split
    · next m n same =>
      cases same
      have same : (intArith op m.toInt n.toInt).map ofInt = .error .divisionByZero ↔
          intArith op m.toInt n.toInt = .error .divisionByZero := by
        cases intArith op m.toInt n.toInt <;> simp [Except.map]
      rw [same, intArith_eq_divisionByZero]
      simp [isZero, isZeroText]
    · next s n same =>
      cases same
      -- The integer is the divisor, and it is not zero.
      rw [textOperand_eq_divisionByZero, intArith_eq_divisionByZero]
      simp only [isZero, beq_iff_eq] at refused
      simp [refused, isZero, isZeroText]
    · next n s same =>
      cases same
      rw [textOperand_eq_divisionByZero, intArith_eq_divisionByZero]
      cases op <;> simp [ArithOp.divides, isZero, isZeroText, kind]
    · next noText =>
      -- No text is asked for its number, and a float that is zero has been noticed.
      have unasked : ¬ (a.kind = .integer ∧ b.isZeroText = true) := by
        cases a <;> cases b <;> simp_all [kind, isZeroText]
      have met : ¬ (op.divides = true ∧
          (b.isZero = true ∨ op = .div ∧ a.kind = .integer ∧ b.isZeroText = true)) := by
        rintro ⟨divides, zero | text⟩
        · exact refused ⟨divides, zero⟩
        · exact unasked text.2
      rw [iff_false_right met]
      unfold mixedArith
      split
      · exact floatArith_ne_divisionByZero _ _ _ _
      · simp

/-- Joining never divides. -/
theorem join_ne_divisionByZero (anyPair : Bool) (op : JoinOp) (a b : Value) :
    join anyPair op a b ≠ .error .divisionByZero := by
  -- What joining refuses is a missing value or a pair of kinds.
  unfold join
  split
  · cases op <;> simp
  · split
    · simp
    · cases op <;> simp

/-- Comparing never divides. -/
theorem compare_ne_divisionByZero (op : CompareOp) (a b : Value) :
    compare op a b ≠ .error .divisionByZero := by
  -- Each of the rules ends in a truth value or a mismatch.
  unfold compare compareEqual
  split
  · simp
  · split <;> simp
  · split <;> simp
  · split <;> simp

/-- Operators other than those of arithmetic never divide. -/
theorem applyBinary_ne_divisionByZero {op : BinaryOp} (other : ∀ sum, op ≠ .arith sum)
    (a b : Value) : applyBinary op a b ≠ .error .divisionByZero := by
  cases op with
  -- Arithmetic is excluded, and none of the others has a divisor.
  | arith sum => exact absurd rfl (other sum)
  | join op => exact join_ne_divisionByZero false op a b
  | compare op =>
    simp only [applyBinary]
    split
    · simp
    · exact compare_ne_divisionByZero op a b
  | logic op =>
    simp only [applyBinary, Bind.bind, Except.bind, Pure.pure, Except.pure]
    cases a <;> cases b <;> simp [asBoolean]
  | unknown symbol => simp [applyBinary]

/-- An operator of arithmetic is applied to two values when both are there. -/
theorem applyBinary_arith {op : ArithOp} {a b : Value} (left : a ≠ .absent) (right : b ≠ .absent) :
    applyBinary (.arith op) a b = arith op a b := by
  simp only [applyBinary, Bool.or_eq_true, isAbsent_iff]
  rw [if_neg (not_or.mpr ⟨left, right⟩)]

/-- Arithmetic with a text as the divisor does not fit, unless the text is to divide an integer. -/
theorem arith_text_divisor {op : ArithOp} {a : Value} (divides : op.divides = true)
    (unfit : ¬ (op = .div ∧ a.kind = .integer)) (text : String) :
    arith op a (.text text) = .error (.typeMismatch (.arith op a.kind .text)) := by
  have unnoticed : ¬ ((op = .div ∨ op = .rem) ∧ isZero (.text text) = true) := by simp [isZero]
  unfold arith
  rw [dif_neg unnoticed]
  cases a with
  | integer n =>
    -- Only a remainder is left, which an integer does not have by a text.
    have rem : op = .rem :=
      (ArithOp.divides_iff.mp divides).resolve_left fun div => unfit ⟨div, rfl⟩
    simp only [if_pos rem, kind]
  | _ => rfl

/-- Arithmetic refuses a divisor of zero exactly when it denotes zero, both operands are there and,
if the divisor is a text, it is to divide an integer. -/
theorem applyBinary_arith_eq_divisionByZero {op : ArithOp} {a b : Value} :
    applyBinary (.arith op) a b = .error .divisionByZero ↔
      op.divides = true ∧ a ≠ .absent ∧ b.DenotesZero ∧
        (b.kind = .text → op = .div ∧ a.kind = .integer) := by
  by_cases present : a ≠ .absent ∧ b ≠ .absent
  · rw [applyBinary_arith present.1 present.2, arith_eq_divisionByZero, denotesZero_iff]
    cases b with
    | text s =>
      -- A text is never the number zero, so that only the second way of being refused is left.
      simp only [isZero, kind, Bool.false_eq_true, false_or, forall_const, present.1, ne_eq,
        not_false_eq_true, true_and]
      tauto
    | _ => simp [isZeroText, kind, present.1]
  · -- A missing operand is a fault of its own.
    have refused : applyBinary (.arith op) a b = .error (.nullOperand (.binary (.arith op))) := by
      simp only [applyBinary, Bool.or_eq_true, isAbsent_iff]
      rw [if_pos (by tauto)]
    rw [refused]
    simp only [Except.error.injEq, reduceCtorEq, false_iff]
    rintro ⟨-, left, zero, -⟩
    refine present ⟨left, ?_⟩
    rintro rfl
    cases zero

/-- Division by zero. It is met by no operator but the two that divide, and by these only for two
values that are there, the second of which denotes zero. Each divisor that denotes zero meets it,
whatever is divided, but for a text in a remainder or under something that is no integer: that is a
mismatch of kinds. -/
theorem applyBinary_eq_divisionByZero (op : BinaryOp) (a b : Value) :
    (applyBinary op a b = .error .divisionByZero ↔
      (op = .arith .div ∨ op = .arith .rem) ∧ a ≠ .absent ∧ b.DenotesZero ∧
        (b.kind = .text → op = .arith .div ∧ a.kind = .integer)) ∧
    ∀ sum, op = .arith sum → sum.divides = true → a ≠ .absent → b.kind = .text →
      ¬ (sum = .div ∧ a.kind = .integer) →
        applyBinary op a b = .error (.typeMismatch (.arith sum a.kind .text)) := by
  constructor
  · cases op with
    | arith sum =>
      simp only [BinaryOp.arith.injEq, ← ArithOp.divides_iff]
      exact applyBinary_arith_eq_divisionByZero
    | _ => simp [applyBinary_ne_divisionByZero]
  · -- The divisor is a text, and that is the only kind to be looked at.
    rintro sum rfl divides present isText unfit
    cases b with
    | text s =>
      rw [applyBinary_arith present (by simp), arith_text_divisor divides unfit]
    | _ => cases isText

/-- A float is not divided by the text of zero, although it is by the number: the one is a mismatch
of kinds and the other a division by zero. -/
theorem applyBinary_one_zeroText :
    (text "0").DenotesZero ∧
      applyBinary (.arith .div) (.float .one) (.text "0") =
        .error (.typeMismatch (.arith .div .float .text)) ∧
      applyBinary (.arith .div) (.float .one) (.integer 0) = .error .divisionByZero ∧
      applyBinary (.arith .div) (.integer 1) (.text "0") = .error .divisionByZero := by
  have zero : (text "0").DenotesZero := denotesZero_iff.mpr (by decide)
  refine ⟨zero, ?_, ?_, ?_⟩
  · exact (applyBinary_eq_divisionByZero _ _ _).2 .div rfl rfl (by simp) rfl (by simp [kind])
  · exact (applyBinary_eq_divisionByZero _ _ _).1.mpr ⟨.inl rfl, by simp, .integer, by simp [kind]⟩
  · exact (applyBinary_eq_divisionByZero _ _ _).1.mpr ⟨.inl rfl, by simp, zero, by simp [kind]⟩

end Value

end Pseudocode
