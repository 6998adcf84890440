import Pseudocode.Proofs.Eval.IntegerArithmetic
import Pseudocode.Proofs.Numeric.Numerals

/-! Arithmetic between a text and an integer: the first digits in the text are the number, and what
is left of the text without any digits is kept before the result. -/

namespace Pseudocode

/-- The first run of digits in a text that no digit could be added to, with what stands before it
and after it. -/
structure FirstRun (text before run after : List Char) : Prop where
  /-- The three parts are the text. -/
  whole : text = before ++ run ++ after
  /-- There are no digits before the run. -/
  plain : before.all (fun c => !c.isDigit) = true
  /-- The run is of digits. -/
  digits : run.all Char.isDigit = true
  /-- The run has a digit. -/
  nonempty : run ≠ []
  /-- No digit stands right after the run. -/
  ends : after.head?.all (fun c => !c.isDigit) = true

namespace FirstRun

variable {text before run after : List Char}

/-- The first run of digits is the one that arithmetic looks for. -/
theorem digitRun_eq (first : FirstRun text before run after) : digitRun text = run := by
  -- The run is not empty and starts with a digit, so dropping stops there.
  obtain ⟨rfl, plain, digits, nonempty, ends⟩ := first
  have starts : (run ++ after).head?.all (fun c => !!c.isDigit) = true := by
    cases run with
    | nil => exact absurd rfl nonempty
    | cons c run => simpa using (List.all_eq_true.mp digits) c List.mem_cons_self
  rw [digitRun, List.append_assoc, Lexer.dropWhile_append_rest plain starts,
    Lexer.takeWhile_append_rest digits ends]

/-- A text that holds a digit has a first run of digits. -/
theorem exists_of_digit (digit : ∃ c ∈ text, c.isDigit = true) :
    ∃ before run after, FirstRun text before run after := by
  -- The parts are what the definition of the run takes and leaves.
  refine ⟨text.takeWhile fun c => !c.isDigit, digitRun text,
    (text.dropWhile fun c => !c.isDigit).dropWhile Char.isDigit, ?_, List.all_takeWhile,
    List.all_takeWhile, ?_, ?_⟩
  · -- What is taken and what is dropped make up the text, twice over.
    rw [digitRun, List.append_assoc, List.takeWhile_append_dropWhile,
      List.takeWhile_append_dropWhile]
  · -- The text does not end before its first digit, with which the run starts.
    have starts := List.head?_dropWhile_not (fun c => !c.isDigit) text
    rw [digitRun]
    cases rest : text.dropWhile fun c => !c.isDigit with
    | nil =>
      obtain ⟨c, member, isDigit⟩ := digit
      have none := List.dropWhile_eq_nil_iff.mp rest c member
      simp [isDigit] at none
    | cons c rest' =>
      have isDigit : c.isDigit = true := by simpa [rest] using starts
      simp [isDigit]
  · -- All the digits that follow it have been taken.
    have ends := List.head?_dropWhile_not Char.isDigit (text.dropWhile fun c => !c.isDigit)
    cases rest : (text.dropWhile fun c => !c.isDigit).dropWhile Char.isDigit with
    | nil => rfl
    | cons c rest' => simpa [rest] using ends

/-- The digits of a number are the first run of a text that has none before them. -/
theorem appended {kept : List Char} (plain : kept.all (fun c => !c.isDigit) = true) (k : Nat) :
    FirstRun (kept ++ decimalDigits k) kept (decimalDigits k) [] where
  whole := (List.append_nil _).symm
  -- Before the digits there are none by assumption, and after them there is nothing.
  plain := plain
  digits := (decimalDigits_isNumeral k).digits
  nonempty := (decimalDigits_isNumeral k).nonempty
  ends := rfl

/-- A text with a first run of digits holds a digit. -/
theorem hasDigit {text : String} (first : FirstRun text.toList before run after) :
    hasDigit text = true := by
  obtain ⟨whole, -, digits, nonempty, -⟩ := first
  -- Any character of the run will do.
  obtain ⟨c, member⟩ := List.exists_mem_of_ne_nil run nonempty
  refine List.any_eq_true.mpr ⟨c, ?_, List.all_eq_true.mp digits c member⟩
  rw [whole]
  exact List.mem_append_left after (List.mem_append_right before member)

end FirstRun

/-- What is left of a text without its digits has none. -/
theorem withoutDigits_plain (text : List Char) :
    (withoutDigits text).all (fun c => !c.isDigit) = true := by
  simp [withoutDigits]

/-- Digits after a text that has none do not stay. -/
theorem withoutDigits_append_digits {kept : List Char}
    (plain : kept.all (fun c => !c.isDigit) = true) (k : Nat) :
    withoutDigits (kept ++ decimalDigits k) = kept := by
  have digits := (decimalDigits_isNumeral k).digits
  -- What was free of digits is kept whole, and the digits behind it all go.
  rw [withoutDigits, List.filter_append, List.filter_eq_self.mpr (List.all_eq_true.mp plain),
    List.filter_eq_nil_iff.mpr, List.append_nil]
  intro c member
  simpa using List.all_eq_true.mp digits c member

/-- Wrapping the first term of a sum does not change what the sum wraps to. -/
theorem wrapInt32_wrapInt32_add (x y : Int) : wrapInt32 (wrapInt32 x + y) = wrapInt32 (x + y) := by
  -- Both sides are the same residue, written in the same range.
  unfold wrapInt32
  omega

/-- Wrapping the second term of a sum does not change what the sum wraps to. -/
theorem wrapInt32_add_wrapInt32 (x y : Int) : wrapInt32 (x + wrapInt32 y) = wrapInt32 (x + y) := by
  -- A sum may be turned around.
  rw [Int.add_comm x, wrapInt32_wrapInt32_add, Int.add_comm y]

/-- A text of some characters and a whole number after them, which is wrapped. -/
def Value.numbered (kept : List Char) (z : Int) : Value :=
  .text (String.ofList kept ++ integerText (wrapInt32 z))

/-- What arithmetic between a text and an integer is expected to give: the characters that are kept
of the text, and the result after them. Only division by zero is refused. -/
def textResult (op : ArithOp) (kept : List Char) (x y : Int) : Except Fault Value :=
  if op = .div ∧ y = 0 then .error .divisionByZero
  else .ok (.numbered kept (op.onIntegers x y))

/-- Arithmetic on the number in a text is arithmetic on the number in its first run of digits. -/
theorem textArith_eq {text : String} {before run after : List Char} {op : ArithOp} {x y : Int}
    {combine : Int → Except Fault Int} (first : FirstRun text.toList before run after)
    (proper : op ≠ .rem) (combined : combine (Nat.ofDigitChars 10 run 0) = intArith op x y) :
    textArith text combine = textResult op (withoutDigits text.toList) x y := by
  -- Without remainders, division is the only operator that refuses anything.
  have refused : op.divides = true ↔ op = .div := by
    simp only [ArithOp.divides_iff, proper, or_false]
  simp only [textArith, textResult, first.digitRun_eq, combined, intArith_eq, refused,
    toInt_ofInt]
  -- Both sides refuse in the same case, and agree in the other.
  split <;> rfl

namespace Value

variable {text : String} {before run after : List Char} {op : ArithOp}

/-- Arithmetic between a text with digits and an integer. -/
theorem applyBinary_text_integer (first : FirstRun text.toList before run after)
    (proper : op ≠ .rem) (n : Int32) :
    applyBinary (.arith op) (.text text) (.integer n) =
      textResult op (withoutDigits text.toList) (Nat.ofDigitChars 10 run 0) n.toInt := by
  -- Division by zero is the only thing that is noticed before the text.
  by_cases fails : op = .div ∧ n.toInt = 0
  · -- A divisor of zero is noticed before the text is looked at.
    simp [applyBinary, isAbsent, arith, isZero, textResult, fails]
  · have divisor : ¬ ((op = .div ∨ op = .rem) ∧ isZero (.integer n) = true) := by
      simpa [proper, isZero] using fails
    change arith op (.text text) (.integer n) = _
    rw [arith, dif_neg divisor]
    simp only [if_neg proper, if_pos first.hasDigit]
    exact textArith_eq first proper rfl

/-- Arithmetic between an integer and a text with digits. -/
theorem applyBinary_integer_text (first : FirstRun text.toList before run after)
    (proper : op ≠ .rem) (n : Int32) :
    applyBinary (.arith op) (.integer n) (.text text) =
      textResult op (withoutDigits text.toList) n.toInt (Nat.ofDigitChars 10 run 0) := by
  -- The text is not the number zero, so that a divisor of zero is noticed only after it is read.
  have divisor : ¬ ((op = .div ∨ op = .rem) ∧ isZero (.text text) = true) := by
    simp [isZero]
  change arith op (.integer n) (.text text) = _
  rw [arith, dif_neg divisor]
  simp only [if_neg proper, if_pos first.hasDigit]
  exact textArith_eq first proper rfl

/-- The sum of two values. -/
def plus (a b : Value) : Except Fault Value :=
  applyBinary (.arith .add) a b

/-- The sum of two integers. -/
theorem integer_plus_integer (n m : Int32) :
    plus (.integer n) (.integer m) = .ok (ofInt (n.toInt + m.toInt)) := by
  -- Both are integers, whose sum is wrapped.
  rw [plus, applyBinary_integers]
  rfl

/-- The sum of a text with digits and an integer. -/
theorem text_plus_integer (first : FirstRun text.toList before run after) (n : Int32) :
    plus (.text text) (.integer n) =
      .ok (numbered (withoutDigits text.toList) (Nat.ofDigitChars 10 run 0 + n.toInt)) :=
  applyBinary_text_integer first (by decide) n

/-- A number that is not negative is read back from the text that it stands in, so that an integer
is added to it. -/
theorem numbered_plus_integer {kept : List Char}
    (plain : kept.all (fun c => !c.isDigit) = true) {z : Int} (positive : 0 ≤ wrapInt32 z)
    (m : Int32) : plus (numbered kept z) (.integer m) = .ok (numbered kept (z + m.toInt)) := by
  let text := String.ofList kept ++ integerText (wrapInt32 z)
  -- Without a sign the digits of the number are all that follows the characters before it.
  have shape : text.toList = kept ++ decimalDigits (wrapInt32 z).natAbs := by
    simp [text, integerText, Int.not_lt.mpr positive]
  have first : FirstRun text.toList kept (decimalDigits (wrapInt32 z).natAbs) [] := by
    rw [shape]
    exact .appended plain _
  have same : ((wrapInt32 z).natAbs : Int) = wrapInt32 z := Int.natAbs_of_nonneg positive
  change plus (.text text) (.integer m) = _
  rw [text_plus_integer first, shape, withoutDigits_append_digits plain,
    ofDigitChars_decimalDigits, same, numbered, numbered, wrapInt32_wrapInt32_add]

/-- Integers may be added to a text one by one or all at once, as long as the first sum is not
negative. -/
theorem text_plus_assoc (first : FirstRun text.toList before run after) {n : Int32}
    (positive : 0 ≤ wrapInt32 (Nat.ofDigitChars 10 run 0 + n.toInt)) (m : Int32) :
    (plus (.text text) (.integer n) >>= (plus · (.integer m))) =
        .ok (numbered (withoutDigits text.toList)
          (Nat.ofDigitChars 10 run 0 + n.toInt + m.toInt)) ∧
      (plus (.integer n) (.integer m) >>= (plus (.text text) ·)) =
        .ok (numbered (withoutDigits text.toList)
          (Nat.ofDigitChars 10 run 0 + n.toInt + m.toInt)) := by
  constructor
  · -- What is kept of the text has no digits, so that the first sum is the only number in it.
    simp only [text_plus_integer first, Bind.bind, Except.bind,
      numbered_plus_integer (withoutDigits_plain _) positive]
  · -- The sum of the integers is wrapped on its own, which the wrapping of the result hides.
    simp only [integer_plus_integer, Bind.bind, Except.bind, ofInt, text_plus_integer first,
      toInt_ofInt, numbered, wrapInt32_add_wrapInt32, Int.add_assoc]

/-- Arithmetic between a text that holds a digit and an integer. The number in the text is that of
its first run of digits, of any size, and what is kept of the text are its characters that are no
digits: those stand before the result, which is wrapped. The operands stay in their order, and only
division by zero is refused. Sums have the same result in either order, and integers may be added
one by one unless that makes a negative number in between, whose sign would be kept. -/
theorem text_arithmetic {text : String} (digit : ∃ c ∈ text.toList, c.isDigit = true) :
    ∃ before run after, FirstRun text.toList before run after ∧
      let kept := text.toList.filter fun c => !c.isDigit
      let number : Int := Nat.ofDigitChars 10 run 0
      (∀ op ≠ .rem, ∀ n : Int32,
        applyBinary (.arith op) (.text text) (.integer n) =
          textResult op kept number n.toInt ∧
        applyBinary (.arith op) (.integer n) (.text text) =
          textResult op kept n.toInt number) ∧
      (∀ n m : Int32, 0 ≤ wrapInt32 (number + n.toInt) →
        (plus (.text text) (.integer n) >>= (plus · (.integer m))) =
          .ok (numbered kept (number + n.toInt + m.toInt)) ∧
        (plus (.integer n) (.integer m) >>= (plus (.text text) ·)) =
          .ok (numbered kept (number + n.toInt + m.toInt))) ∧
      ∀ n : Int32, plus (.text text) (.integer n) = plus (.integer n) (.text text) := by
  -- The number is the one run of digits that the arithmetic takes; the parts are separate lemmas.
  obtain ⟨before, run, after, first⟩ := FirstRun.exists_of_digit digit
  refine ⟨before, run, after, first, fun op proper n => ⟨?_, ?_⟩,
    fun n m positive => text_plus_assoc first positive m, fun n => ?_⟩
  · exact applyBinary_text_integer first proper n
  · exact applyBinary_integer_text first proper n
  · have turned := applyBinary_integer_text first (by decide : ArithOp.add ≠ .rem) n
    -- Addition of numbers can be turned around, and the text is kept in both orders.
    rw [text_plus_integer first, Int.add_comm]
    exact turned.symm

/-- The text `a21b7` is divided by two and divides fifty, and two integers are added to it. -/
theorem text_arithmetic_twentyOne :
    (∃ c ∈ "a21b7".toList, c.isDigit = true) ∧
      applyBinary (.arith .div) (.text "a21b7") (.integer 2) = .ok (.text "ab10") ∧
      applyBinary (.arith .div) (.integer 50) (.text "a21b7") = .ok (.text "ab2") ∧
      applyBinary (.arith .div) (.text "a21b7") (.integer 0) = .error .divisionByZero ∧
      (plus (.text "a21b7") (.integer (-20)) >>= (plus · (.integer (-5)))) =
        .ok (.text "ab-4") := by
  -- The first digit is enough to see that the text holds one.
  have digit : ∃ c ∈ "a21b7".toList, c.isDigit = true := ⟨'2', by decide, rfl⟩
  obtain ⟨before, run, after, first, results, sums, -⟩ := text_arithmetic digit
  -- The run is read off from the text, since it is what the arithmetic takes.
  obtain rfl : ['2', '1'] = run := first.digitRun_eq
  have divided := (results .div (by decide) 2).1
  have dividing := (results .div (by decide) 50).2
  have byZero := (results .div (by decide) 0).1
  have added := (sums (-20) (-5) (by decide)).1
  refine ⟨digit, divided.trans ?_, dividing.trans ?_, byZero.trans ?_, added.trans ?_⟩ <;> decide

end Value

end Pseudocode
