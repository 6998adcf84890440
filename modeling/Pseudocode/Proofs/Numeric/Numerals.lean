import Mathlib.Data.List.TakeWhile
import Pseudocode.Proofs.Numeric.Decimals
import Pseudocode.Proofs.Source.Spelling

/-! How decimal numbers are written, and that every 64-bit number is read back from its text. -/

namespace Pseudocode

/-- The digits of a number are a numeral. -/
theorem decimalDigits_isNumeral (n : Nat) : IsNumeral (decimalDigits n) := by
  refine ⟨Nat.toDigits_ne_nil, List.all_eq_true.mpr fun c member => ?_⟩
  -- The library has it that all digits are digits, and that there is at least one.
  exact Nat.isDigit_of_mem_toDigits (by decide) (by decide) member

/-- The digits of a number stand for it. -/
theorem ofDigitChars_decimalDigits (n : Nat) : Nat.ofDigitChars 10 (decimalDigits n) 0 = n :=
  Nat.ofDigitChars_ten_toDigits

/-- Only zero is written with a zero in front. -/
theorem decimalDigits_head? {n : Nat} (nonzero : n ≠ 0) : (decimalDigits n).head? ≠ some '0' := by
  -- The induction is on the number without its last digit.
  induction n using Nat.strongRecOn with
  | ind n ih =>
    by_cases small : n < 10
    · -- Nine digits are left to look at.
      rcases n with _ | _ | _ | _ | _ | _ | _ | _ | _ | _ | n
      all_goals first | omega | decide
    -- A number with more digits starts with the first digit of a smaller one.
    · have digits := Nat.toDigits_of_base_le (by decide : 1 < 10) (Nat.not_lt.mp small)
      have front := ih (n / 10) (by omega) (by omega)
      rw [decimalDigits, digits, List.head?_append_of_ne_nil _ Nat.toDigits_ne_nil]
      exact front

/-- Zeros in front do not count. -/
theorem ofDigitChars_zeros_append (count : Nat) (digits : List Char) :
    Nat.ofDigitChars 10 (List.replicate count '0' ++ digits) 0 = Nat.ofDigitChars 10 digits 0 := by
  -- Zeros have the value zero, and the places after them are unchanged.
  rw [Nat.ofDigitChars_append, Nat.ofDigitChars_replicate_zero, Nat.mul_zero]

/-- The number that digits after a point stand for. -/
def fractionValue (digits : List Char) : ℚ :=
  Nat.ofDigitChars 10 digits 0 / 10 ^ digits.length

/-- Zeros at the end of a fraction do not count. -/
theorem fractionValue_append_zeros (digits : List Char) (count : Nat) :
    fractionValue (digits ++ List.replicate count '0') = fractionValue digits := by
  -- Each zero multiplies the digits by ten and adds one place.
  simp only [fractionValue, Nat.ofDigitChars_append, Nat.ofDigitChars_replicate_zero,
    List.length_append, List.length_replicate, pow_add]
  push_cast
  field_simp

/-- A fraction is what is left of it and the zeros that are dropped. -/
theorem trimZeros_append_zeros (digits : List Char) :
    ∃ count, digits = Decimal.trimZeros digits ++ List.replicate count '0' := by
  have parts := List.takeWhile_append_dropWhile (p := (· == '0')) (l := digits.reverse)
  have zeros : digits.reverse.takeWhile (· == '0') =
      List.replicate (digits.reverse.takeWhile (· == '0')).length '0' := by
    refine List.eq_replicate_of_mem fun c member => ?_
    simpa using List.mem_takeWhile_imp member
  -- Seen from the end, the zeros are what the trimming has taken.
  refine ⟨(digits.reverse.takeWhile (· == '0')).length, ?_⟩
  have split := congrArg List.reverse parts
  rw [List.reverse_append, List.reverse_reverse, zeros, List.reverse_replicate] at split
  rw [Decimal.trimZeros]
  simpa using split.symm

/-- Dropping the zeros at its end does not change a fraction. -/
theorem fractionValue_trimZeros (digits : List Char) :
    fractionValue (Decimal.trimZeros digits) = fractionValue digits := by
  -- The digits are what is left of them and zeros after that.
  obtain ⟨count, whole⟩ := trimZeros_append_zeros digits
  conv_rhs => rw [whole, fractionValue_append_zeros]

/-- What is left of digits are digits. -/
theorem trimZeros_digits {digits : List Char} (all : digits.all Char.isDigit = true) :
    (Decimal.trimZeros digits).all Char.isDigit = true := by
  obtain ⟨count, whole⟩ := trimZeros_append_zeros digits
  -- What is left is a part of the digits.
  rw [whole, List.all_append, Bool.and_eq_true] at all
  exact all.1

/-- Digits with zeros in front of them are digits. -/
theorem padded_digits (count n : Nat) :
    (List.replicate count '0' ++ decimalDigits n).all Char.isDigit = true := by
  -- Zeros are digits, and so are the digits of a number.
  rw [List.all_append, (decimalDigits_isNumeral n).digits, Bool.and_true, List.all_eq_true]
  intro c member
  rw [List.eq_of_mem_replicate member]
  decide

/-- A decimal number as it is written: digits without a zero in front, more of them after a point if
any, and an exponent with its sign if any. -/
structure Numeral where
  /-- Whether there is a minus sign in front. -/
  negative : Bool
  /-- The digits before the point. -/
  whole : List Char
  /-- The digits after the point, which is left out when there are none. -/
  fraction : List Char
  /-- Whether the exponent has a minus sign, and its digits. -/
  exponent : Option (Bool × List Char)
  /-- There is a digit before the point. -/
  wholeDigits : IsNumeral whole
  /-- A zero stands in front only by itself. -/
  plain : whole = ['0'] ∨ whole.head? ≠ some '0'
  /-- Only digits follow the point. -/
  fractionDigits : fraction.all Char.isDigit = true
  /-- An exponent has a digit. -/
  exponentDigits : ∀ sign digits, exponent = some (sign, digits) → IsNumeral digits

namespace Numeral

/-- The point and the digits after it. -/
def point (numeral : Numeral) : List Char :=
  if numeral.fraction.isEmpty then [] else '.' :: numeral.fraction

/-- The exponent with its letter and its sign. -/
def exponentText (numeral : Numeral) : List Char :=
  match numeral.exponent with
  | none => []
  | some (negative, digits) => 'e' :: (if negative then '-' else '+') :: digits

/-- The text of a numeral after its sign. -/
def unsigned (numeral : Numeral) : List Char :=
  numeral.whole ++ (numeral.point ++ numeral.exponentText)

/-- The sign of a numeral, if it has one. -/
def sign (numeral : Numeral) : List Char :=
  if numeral.negative then ['-'] else []

/-- The text of a numeral. -/
def text (numeral : Numeral) : List Char :=
  numeral.sign ++ numeral.unsigned

/-- The number in the exponent. -/
def exponentValue (numeral : Numeral) : Int :=
  match numeral.exponent with
  | none => 0
  | some (negative, digits) =>
    let size : Int := Nat.ofDigitChars 10 digits 0
    if negative then -size else size

/-- The number that a numeral stands for. -/
def decimal (numeral : Numeral) : Decimal where
  negative := numeral.negative
  digits := Nat.ofDigitChars 10 (numeral.whole ++ numeral.fraction) 0
  exp := numeral.exponentValue - numeral.fraction.length

/-- The magnitude is that of the digits around the point, moved by the exponent. -/
theorem decimal_magnitude (numeral : Numeral) :
    numeral.decimal.magnitude =
      (Nat.ofDigitChars 10 numeral.whole 0 + fractionValue numeral.fraction) *
        10 ^ numeral.exponentValue := by
  simp only [decimal, Decimal.magnitude, fractionValue]
  -- The digits are one whole number, divided by a power of ten for the point.
  rw [Nat.ofDigitChars_append, Nat.ofDigitChars_eq_ofDigitChars_zero, zpow_sub₀ (by norm_num),
    zpow_natCast]
  push_cast
  field_simp

variable (numeral : Numeral)

/-- What follows the digits before the point is no digit. -/
theorem point_append_head? :
    (numeral.point ++ numeral.exponentText).head?.all (fun c => !c.isDigit) = true := by
  -- A point or the letter of an exponent comes next, or nothing at all.
  unfold point exponentText
  split <;> split <;> rfl

/-- What follows the digits after the point is no digit. -/
theorem exponentText_head? :
    numeral.exponentText.head?.all (fun c => !c.isDigit) = true := by
  unfold exponentText
  split <;> rfl

/-- The digits before the point are told from what follows. -/
theorem span_unsigned :
    numeral.unsigned.span Char.isDigit =
      (numeral.whole, numeral.point ++ numeral.exponentText) := by
  have stops := numeral.point_append_head?
  -- So the digits before the point are those that are taken up to there.
  rw [unsigned, List.span_eq_takeWhile_dropWhile,
    Lexer.takeWhile_append_rest numeral.wholeDigits.digits stops,
    Lexer.dropWhile_append_rest numeral.wholeDigits.digits stops]

/-- Digits are no sign. -/
theorem splitSign_text : splitSign numeral.text = (numeral.negative, numeral.unsigned) := by
  unfold text sign
  split
  · -- A minus sign is split off, and no digit is taken for one.
    rename_i minus
    rw [minus]
    rfl
  · rename_i plus
    rw [Bool.not_eq_true] at plus
    rw [plus, List.nil_append, unsigned, numeral.wholeDigits.splitSign_append]

/-- The digits after the point are told from the exponent. -/
theorem splitFraction_point :
    Decimal.splitFraction (numeral.point ++ numeral.exponentText) =
      (numeral.fraction, numeral.exponentText) := by
  have stops := numeral.exponentText_head?
  unfold point
  -- Without a point there is no fraction, and an exponent may follow at once.
  split
  · -- Nothing has been split off, and the letter of an exponent is no digit either.
    rename_i none
    rw [List.isEmpty_iff.mp none, List.nil_append]
    unfold exponentText
    split <;> rfl
  · rw [List.cons_append, Decimal.splitFraction, List.span_eq_takeWhile_dropWhile,
      Lexer.takeWhile_append_rest numeral.fractionDigits stops,
      Lexer.dropWhile_append_rest numeral.fractionDigits stops]

/-- The exponent is read as the number in it. -/
theorem readExponent?_exponentText :
    Decimal.readExponent? numeral.exponentText = some numeral.exponentValue := by
  unfold exponentText exponentValue
  cases present : numeral.exponent with
  | none => rfl
  | some exponent =>
    -- The sign is always written, and is split off again.
    obtain ⟨negative, digits⟩ := exponent
    have isNumeral := numeral.exponentDigits negative digits present
    cases negative <;>
      simp [Decimal.readExponent?, splitSign, isNumeral.nonempty, isNumeral.digits]

/-- A numeral is read as the number that it stands for. -/
theorem read?_text : Decimal.read? numeral.text = some numeral.decimal := by
  have digits : (numeral.whole.isEmpty && numeral.fraction.isEmpty) = false := by
    simp [numeral.wholeDigits.nonempty]
  -- Each part of the text is split off as it was put there.
  simp only [Decimal.read?, numeral.splitSign_text, numeral.span_unsigned,
    numeral.splitFraction_point, numeral.readExponent?_exponentText, digits]
  rfl

end Numeral

/-- The digits of a number have a zero in front only when they are nothing else. -/
theorem decimalDigits_plain (n : Nat) :
    decimalDigits n = ['0'] ∨ (decimalDigits n).head? ≠ some '0' := by
  -- Zero is a case by itself.
  by_cases zero : n = 0
  · left
    rw [zero]
    rfl
  · exact .inr (decimalDigits_head? zero)

namespace Decimal

/-- The digits after the point of a number in fixed point. At least one is shown. -/
def shownFraction (d : Decimal) : List Char :=
  if d.fixedParts.2.isEmpty then ['0'] else d.fixedParts.2

/-- Only digits are shown. -/
theorem shownFraction_digits (d : Decimal) : d.shownFraction.all Char.isDigit = true := by
  unfold shownFraction
  -- A zero by itself is a digit, and the others come from a number.
  split
  · decide
  · exact trimZeros_digits (padded_digits _ _)

/-- Digits that are filled up with zeros in front are as many as the places, if there are any. -/
theorem length_padded {n places : Nat} (below : n < 10 ^ places) (some : places ≠ 0) :
    (List.replicate (places - (decimalDigits n).length) '0' ++ decimalDigits n).length =
      places := by
  -- The number has at most as many digits as the bound has zeros.
  have fits : (decimalDigits n).length ≤ places :=
    (Nat.length_toDigits_le_iff (by decide) (by omega)).mpr below
  rw [List.length_append, List.length_replicate, Nat.sub_add_cancel fits]

/-- Digits that are filled up with zeros in front are a fraction of that many places. -/
theorem fractionValue_padded {n places : Nat} (below : n < 10 ^ places) :
    fractionValue (List.replicate (places - (decimalDigits n).length) '0' ++ decimalDigits n) =
      n / 10 ^ places := by
  -- The zeros in front count nothing, and the number of places is what the digits were filled up
  -- to.
  rw [fractionValue, ofDigitChars_zeros_append, ofDigitChars_decimalDigits]
  by_cases none : places = 0
  · -- Without any places there is nothing but zero.
    subst none
    have zero : n = 0 := by omega
    simp [zero]
  · rw [length_padded below none]

/-- The digits after the point stand for what the whole part leaves over. -/
theorem fractionValue_shownFraction (d : Decimal) :
    fractionValue d.shownFraction =
      (d.digits * scale 10 d.exp % scale 10 (-d.exp) : Nat) / (scale 10 (-d.exp) : Nat) := by
  have below : d.digits * scale 10 d.exp % scale 10 (-d.exp) < 10 ^ (-d.exp).toNat :=
    Nat.mod_lt _ (scale_pos (by decide) _)
  -- A zero that is shown for nothing counts nothing.
  have shown : fractionValue d.shownFraction = fractionValue d.fixedParts.2 := by
    unfold shownFraction
    split
    · rename_i none
      rw [List.isEmpty_iff.mp none]
      simp [fractionValue, Nat.ofDigitChars_cons]
    · rfl
  -- The trimmed zeros do not count either, and what is left is a fraction of all the places.
  rw [shown, fixedParts, fractionValue_trimZeros, fractionValue_padded below, scale]
  norm_cast

/-- A number in fixed point is a numeral. -/
def fixedNumeral (d : Decimal) : Numeral where
  negative := d.negative
  whole := d.fixedParts.1
  fraction := d.shownFraction
  exponent := none
  wholeDigits := decimalDigits_isNumeral _
  plain := decimalDigits_plain _
  fractionDigits := d.shownFraction_digits
  exponentDigits := by simp

/-- At least one digit is shown. -/
theorem shownFraction_isEmpty (d : Decimal) : d.shownFraction.isEmpty = false := by
  unfold shownFraction
  -- A zero is put where nothing was left.
  split <;> simp_all

/-- The text in fixed point is that of the numeral. -/
theorem fixed_eq (d : Decimal) : d.fixed = String.ofList d.fixedNumeral.text := by
  have some := d.shownFraction_isEmpty
  -- The two texts are put together from the same parts.
  show String.ofList (d.fixedNumeral.sign ++ d.fixedNumeral.whole ++ '.' :: d.shownFraction) = _
  simp [Numeral.text, Numeral.unsigned, Numeral.point, Numeral.exponentText, fixedNumeral, some]

/-- In fixed point a number keeps its magnitude. -/
theorem fixedNumeral_magnitude (d : Decimal) :
    d.fixedNumeral.decimal.magnitude = d.magnitude := by
  -- The divisor is a power of ten.
  have divisor : ((scale 10 (-d.exp) : Nat) : ℚ) ≠ 0 := by
    exact_mod_cast (scale_pos (by decide) _).ne'
  have law : (scale 10 (-d.exp) : ℚ) * (d.digits * scale 10 d.exp / scale 10 (-d.exp) : Nat) +
      (d.digits * scale 10 d.exp % scale 10 (-d.exp) : Nat) = d.digits * scale 10 d.exp := by
    exact_mod_cast Nat.div_add_mod (d.digits * scale 10 d.exp) (scale 10 (-d.exp))
  have factors := scale_div_scale (by decide : 0 < 10) d.exp
  -- Whole part and fraction are the quotient and the remainder of one division.
  rw [Numeral.decimal_magnitude]
  simp only [fixedNumeral, fractionValue_shownFraction, Numeral.exponentValue, zpow_zero, mul_one,
    fixedParts, ofDigitChars_decimalDigits, magnitude]
  rw [Nat.cast_ofNat] at factors
  rw [← factors, eq_comm, ← mul_div_assoc, div_eq_iff divisor, add_mul, div_mul_cancel₀ _ divisor]
  linarith

/-- The exponent of a number with its point after the first digit. -/
def scientificExponent (d : Decimal) : Int :=
  d.exp + (decimalDigits d.digits).length - 1

/-- The first digit of a number is a numeral. -/
theorem take_isNumeral (d : Decimal) : IsNumeral ((decimalDigits d.digits).take 1) := by
  -- The digits are not empty, and taking one of them leaves a digit.
  have isNumeral := decimalDigits_isNumeral d.digits
  refine ⟨by simpa using isNumeral.nonempty, List.all_eq_true.mpr fun c member => ?_⟩
  exact List.all_eq_true.mp isNumeral.digits c (List.mem_of_mem_take member)

/-- A number with its point after the first digit is a numeral. -/
def scientificNumeral (d : Decimal) : Numeral where
  negative := d.negative
  whole := (decimalDigits d.digits).take 1
  fraction := trimZeros ((decimalDigits d.digits).drop 1)
  exponent := some (d.scientificExponent < 0,
    List.replicate (2 - (decimalDigits d.scientificExponent.natAbs).length) '0' ++
      decimalDigits d.scientificExponent.natAbs)
  wholeDigits := d.take_isNumeral
  plain := by
    -- There is but one digit, so that a zero stands by itself.
    obtain ⟨c, rest, digits⟩ :=
      List.exists_cons_of_ne_nil (decimalDigits_isNumeral d.digits).nonempty
    by_cases zero : c = '0' <;> simp [digits, zero]
  fractionDigits := by
    refine trimZeros_digits (List.all_eq_true.mpr fun c member => ?_)
    exact List.all_eq_true.mp (decimalDigits_isNumeral d.digits).digits c
      (List.mem_of_mem_drop member)
  exponentDigits := by
    rintro _ _ ⟨⟩
    have nonempty := (decimalDigits_isNumeral d.scientificExponent.natAbs).nonempty
    exact ⟨by simp [nonempty], padded_digits _ _⟩

/-- The text with an exponent is that of the numeral. -/
theorem scientific_eq (d : Decimal) :
    (if d.negative then ['-'] else []) ++ d.scientific = d.scientificNumeral.text := by
  -- The parts of the text are those of the definition.
  simp [scientific, Numeral.text, Numeral.sign, Numeral.unsigned, Numeral.point,
    Numeral.exponentText, scientificNumeral, scientificExponent]

/-- With an exponent a number keeps its magnitude. -/
theorem scientificNumeral_magnitude (d : Decimal) :
    d.scientificNumeral.decimal.magnitude = d.magnitude := by
  obtain ⟨c, rest, digits⟩ :=
    List.exists_cons_of_ne_nil (decimalDigits_isNumeral d.digits).nonempty
  -- The digits are the first one and those after it, which stand for the number together.
  have value := ofDigitChars_decimalDigits d.digits
  rw [digits, ← List.singleton_append, Nat.ofDigitChars_append,
    Nat.ofDigitChars_eq_ofDigitChars_zero] at value
  -- The point is moved by as many places as there are digits after the first.
  have exponent : d.scientificNumeral.exponentValue = d.exp + rest.length := by
    simp only [Numeral.exponentValue, scientificNumeral, ofDigitChars_zeros_append,
      ofDigitChars_decimalDigits, decide_eq_true_eq]
    simp only [scientificExponent, digits, List.length_cons]
    split <;> omega
  rw [Numeral.decimal_magnitude, exponent]
  simp only [scientificNumeral, fractionValue_trimZeros, digits, magnitude, List.take_succ_cons,
    List.take_zero, List.drop_succ_cons, List.drop_zero]
  -- The power of ten is split at the point.
  rw [← value, fractionValue, zpow_add₀ (by norm_num), zpow_natCast]
  push_cast
  field_simp

end Decimal

/-- The numeral that a finite 64-bit number is written as. -/
def Binary.numeral (x : Binary .double) : Numeral :=
  let d := x.shortest
  if d.digits = 0 ∨ (-4 ≤ d.scientificExponent ∧ d.scientificExponent < 16) then d.fixedNumeral
  else d.scientificNumeral

namespace Binary

variable (x : Binary .double)

/-- The text of a number is that of its numeral. -/
theorem text_eq : (Double.finite x).text = String.ofList x.numeral.text := by
  simp only [Double.text, numeral, Decimal.fixed_eq, Decimal.scientific_eq]
  -- The condition chooses between the two numerals as it chooses between the two texts.
  rw [apply_ite Numeral.text, apply_ite String.ofList]
  rfl

/-- A numeral of a number has a point or an exponent. -/
theorem numeral_fraction_or_exponent :
    x.numeral.point ≠ [] ∨ x.numeral.exponentText ≠ [] := by
  simp only [numeral]
  -- In fixed point a digit follows the point, and else there is an exponent.
  split
  · left
    simp [Numeral.point, Decimal.fixedNumeral, Decimal.shownFraction_isEmpty]
  · right
    simp [Numeral.exponentText, Decimal.scientificNumeral]

/-- The numeral of a number is read as the number. -/
theorem numeral_toDouble : x.numeral.decimal.toDouble = .finite x := by
  -- What stands in the shortest decimal is read back; only how it is written has to be looked at.
  rw [← x.shortest_toDouble]
  simp only [numeral]
  -- Both ways of writing keep the sign and the magnitude.
  split
  · exact Decimal.toDouble_congr rfl x.shortest.fixedNumeral_magnitude
  · exact Decimal.toDouble_congr rfl x.shortest.scientificNumeral_magnitude

/-- A finite 64-bit number is read back from its text. -/
theorem read?_text :
    (Decimal.read? (Double.finite x).text.toList).map Decimal.toDouble = some (.finite x) := by
  -- The text is read as the numeral, whose number is read back.
  rw [text_eq, String.toList_ofList, Numeral.read?_text, Option.map_some, numeral_toDouble]

end Binary

end Pseudocode
