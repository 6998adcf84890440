import Pseudocode.Proofs.Numeric.Numerals
import Pseudocode.Proofs.Value.Settled
import Pseudocode.Value.Convert

/-! What a float is displayed as: the shape of the text, the number in it, and that the float is
read back from it. -/

namespace Pseudocode

/-- A text without blanks has none around it. -/
theorem trim_eq_self {text : List Char} (visible : ∀ c ∈ text, isBlank c = false) :
    trim text = text := by
  -- With nothing around it, the text is what stands between two empty gaps.
  have bare : trim ([] ++ (text ++ [])) = text :=
    trim_surrounded (by simp) (fun c first => visible c (List.mem_of_head? first))
      fun c last => visible c (List.mem_of_getLast? last)
  rwa [List.append_nil] at bare

/-- Digits are not blank. -/
theorem isBlank_of_isDigit {c : Char} (digit : c.isDigit = true) : isBlank c = false := by
  -- A digit may stand in a name, and no blank may.
  have visible := Lexer.isVisible_of_isNameChar (Lexer.isNameChar_of_isDigit digit)
  simp_all [Lexer.isVisible]

/-- A text that is read as a float is taken for it, on an input line and as an initial value. -/
theorem float_of_readFloat {text : String} {x : Single}
    (read : (readFloat text).toOption.bind Value.ofDouble? = some (.float x)) :
    readInput .float text = .ok (.float x) ∧
      Value.convert .float (.text text) = .ok (.float x) := by
  -- Both readers end in the same partial function.
  have converted : (Value.text text).convert? .float = some (.float x) := read
  unfold readInput Value.convert
  rw [read, converted]
  exact ⟨rfl, rfl⟩

namespace Numeral

/-- There are no blanks in a numeral. -/
theorem text_visible (numeral : Numeral) : ∀ c ∈ numeral.text, isBlank c = false := by
  -- Whole part, fraction and exponent are digits, and only the signs around them are not.
  have digits : ∀ {part : List Char}, part.all Char.isDigit = true →
      ∀ c ∈ part, isBlank c = false :=
    fun all c member => isBlank_of_isDigit (List.all_eq_true.mp all c member)
  have sign : ∀ c ∈ numeral.sign, isBlank c = false := by
    unfold sign
    split
    · rw [List.forall_mem_singleton]
      decide
    · simp
  have point : ∀ c ∈ numeral.point, isBlank c = false := by
    unfold point
    split
    · simp
    · rw [List.forall_mem_cons]
      exact ⟨by decide, digits numeral.fractionDigits⟩
  have exponent : ∀ c ∈ numeral.exponentText, isBlank c = false := by
    unfold exponentText
    split
    · simp
    · rename_i minus size present
      rw [List.forall_mem_cons, List.forall_mem_cons]
      refine ⟨by decide, ?_, digits (numeral.exponentDigits minus size present).digits⟩
      split <;> decide
  simp only [text, unsigned, List.forall_mem_append]
  exact ⟨sign, digits numeral.wholeDigits.digits, point, exponent⟩

/-- A numeral is read as the 64-bit number that is nearest to what it stands for. -/
theorem readFloat_text (numeral : Numeral) :
    readFloat (String.ofList numeral.text) = .ok numeral.decimal.toDouble := by
  rw [readFloat, String.toList_ofList, trim_eq_self numeral.text_visible, numeral.read?_text]

end Numeral

namespace Decimal

variable (d : Decimal) (places : Nat)

/-- A number in fixed point is read as the nearest 64-bit number. -/
theorem readFloat_fixed : readFloat d.fixed = .ok d.toDouble := by
  -- The text in fixed point is a numeral, and its magnitude is that of the number.
  rw [d.fixed_eq, d.fixedNumeral.readFloat_text]
  exact congrArg Except.ok (Decimal.toDouble_congr rfl d.fixedNumeral_magnitude)

/-- A number of few places is kept. -/
theorem limitPlaces_of_le (few : -(places : Int) ≤ d.exp) : d.limitPlaces places = d := by
  rw [limitPlaces, if_neg (not_lt.mpr few)]

/-- Limiting the places leaves no more of them. -/
theorem le_limitPlaces_exp : -(places : Int) ≤ (d.limitPlaces places).exp := by
  unfold limitPlaces
  split
  · exact le_rfl
  · rename_i few
    exact not_lt.mp few

/-- Limiting the places keeps the sign. -/
theorem limitPlaces_negative : (d.limitPlaces places).negative = d.negative := by
  unfold limitPlaces
  split <;> rfl

/-- In units of the last place that is allowed, a limited number is whole, and nearest to the given
one. -/
theorem limitPlaces_nearest :
    ∃ whole : Nat, (d.limitPlaces places).magnitude * 10 ^ places = whole ∧
      Nearest (d.magnitude * 10 ^ places) whole := by
  by_cases few : -(places : Int) ≤ d.exp
  · -- All digits are in places that are allowed.
    -- The power of ten that is left is not negative, so the product is whole.
    have moved : d.magnitude * 10 ^ places = (d.digits * 10 ^ (d.exp + places).toNat : Nat) := by
      have power : (10 : ℚ) ^ (d.exp + places) = 10 ^ (d.exp + places).toNat := by
        rw [← zpow_natCast, Int.toNat_of_nonneg (by omega)]
      rw [magnitude, mul_assoc, ← zpow_natCast, ← zpow_add₀ (by norm_num), power]
      push_cast
      rfl
    refine ⟨_, by rw [d.limitPlaces_of_le places few]; exact moved, .of_lt ?_⟩
    rw [moved, sub_self, abs_zero]
    norm_num
  -- Some digits are cut, and what is left of the number is a quotient.
  · have divisor := scale_pos (by decide : 0 < 10) (-d.exp - places)
    have moved : d.magnitude * 10 ^ places = d.digits / (scale 10 (-d.exp - places) : Nat) := by
      have power : ((scale 10 (-d.exp - places) : Nat) : ℚ) = 10 ^ (-d.exp - places) := by
        -- The exponent of the divisor is positive, as a natural number it is the same.
        rw [scale, Nat.pow_eq, Nat.cast_pow, Nat.cast_ofNat, ← zpow_natCast,
          Int.toNat_of_nonneg (by omega)]
      rw [magnitude, power, mul_assoc, ← zpow_natCast, ← zpow_add₀ (by norm_num), div_eq_mul_inv,
        ← zpow_neg]
      congr 2
      ring
    refine ⟨roundDiv d.digits (scale 10 (-d.exp - places)), ?_, ?_⟩
    · rw [limitPlaces, if_pos (not_le.mp few), magnitude, mul_assoc, ← zpow_natCast,
        ← zpow_add₀ (by norm_num), neg_add_cancel, zpow_zero, mul_one]
    · rw [moved]
      exact roundDiv_nearest _ divisor

/-- A number that is whole in units of the last place that is allowed keeps its magnitude. -/
theorem limitPlaces_magnitude {whole : Nat} (few : d.magnitude * 10 ^ places = whole) :
    (d.limitPlaces places).magnitude = d.magnitude := by
  obtain ⟨nearby, shown, nearest⟩ := d.limitPlaces_nearest places
  -- The nearest whole number to a whole number is that number itself.
  have same := nearest.eq_of_natCast few
  rw [same, ← few] at shown
  exact mul_right_cancel₀ (by positivity) shown

/-- What is left of digits does not end in a zero. -/
theorem getLast?_trimZeros (digits : List Char) : (trimZeros digits).getLast? ≠ some '0' := by
  -- Dropping stops in front of something that is no zero.
  intro zero
  have first := List.head?_dropWhile_not (· == '0') digits.reverse
  rw [trimZeros, List.getLast?_reverse] at zero
  simp [zero] at first

/-- What is left of digits is not longer than they are. -/
theorem length_trimZeros_le (digits : List Char) : (trimZeros digits).length ≤ digits.length := by
  -- The text is what is left of it with zeros after that.
  obtain ⟨count, split⟩ := trimZeros_append_zeros digits
  have counted := congrArg List.length split
  rw [List.length_append] at counted
  omega

/-- A zero is the last digit that is shown only when it is shown for nothing. -/
theorem getLast?_shownFraction : d.shownFraction = ['0'] ∨ d.shownFraction.getLast? ≠ some '0' := by
  unfold shownFraction
  split
  · exact .inl rfl
  · exact .inr (getLast?_trimZeros _)

/-- No more digits are shown after the point than the exponent has places, but always one. -/
theorem length_shownFraction_le : d.shownFraction.length ≤ max 1 (-d.exp).toNat := by
  unfold shownFraction
  split
  · exact le_max_left _ _
  · rename_i shown
    -- The remainder of the division by the power of ten has no more digits than that has zeros.
    have below : d.digits * scale 10 d.exp % scale 10 (-d.exp) < 10 ^ (-d.exp).toNat :=
      Nat.mod_lt _ (scale_pos (by decide) _)
    by_cases none : (-d.exp).toNat = 0
    · -- Without any places there is nothing but zeros, and none of them is left.
      rw [none, Nat.pow_zero, Nat.lt_one_iff] at below
      have empty : d.fixedParts.2 = [] := by
        simp only [fixedParts, none, below]
        rfl
      simp [empty] at shown
    -- The padding fills up the places, and trimming only shortens.
    · refine (length_trimZeros_le _).trans (le_max_of_le_right ?_)
      rw [length_padded below none]

end Decimal

/-- A text is a number in fixed point with at most the given number of places: a minus sign if any,
a whole part without a zero in front, a point, and at least one digit, the last of which is no zero
unless it is the only one. -/
structure FixedPoint (places : Nat) (text : String) (negative : Bool)
    (whole fraction : List Char) : Prop where
  /-- The parts make up the text. -/
  text : text = String.ofList ((if negative then ['-'] else []) ++ whole ++ '.' :: fraction)
  /-- There are digits before the point. -/
  wholeDigits : IsNumeral whole
  /-- A zero stands in front only by itself. -/
  plain : whole = ['0'] ∨ whole.head? ≠ some '0'
  /-- There are digits after the point. -/
  fractionDigits : IsNumeral fraction
  /-- The places are limited. -/
  short : fraction.length ≤ places
  /-- A zero stands at the end only by itself. -/
  trimmed : fraction = ['0'] ∨ fraction.getLast? ≠ some '0'

/-- A limited number in fixed point has the shape of one. -/
theorem Decimal.fixedPoint_fixed (d : Decimal) {places : Nat} (some : 0 < places)
    (few : -(places : Int) ≤ d.exp) :
    FixedPoint places d.fixed d.negative d.fixedParts.1 d.shownFraction where
  text := rfl
  wholeDigits := decimalDigits_isNumeral _
  plain := decimalDigits_plain _
  fractionDigits := ⟨by simpa using d.shownFraction_isEmpty, d.shownFraction_digits⟩
  short := d.length_shownFraction_le.trans (by omega)
  trimmed := d.getLast?_shownFraction

namespace Single

variable (x : Single)

/-- A number that is not too small is displayed with all the digits that the search has found. -/
theorem limitPlaces_settled (range : x.value = 0 ∨ 1 / 10 ^ 8 ≤ |x.value|) :
    x.settled.limitPlaces displayPlaces = x.settled := by
  apply Decimal.limitPlaces_of_le
  -- Zero has no places at all; any other number is at least a unit of the eighth place.
  by_cases zero : x.mant = 0
  · rw [x.settled_of_zero zero]
    exact (by decide : -(displayPlaces : Int) ≤ 0)
  · have positive : 0 < x.toExact.magnitude := Exact.magnitude_pos zero
    have least : ((10 : Nat) : ℚ) ^ (-8 : Int) ≤ x.toExact.magnitude := by
      rw [x.toExact_magnitude, ← x.abs_value]
      rcases range with none | least
      · rw [x.toExact_magnitude, ← x.abs_value, none, abs_zero] at positive
        exact absurd positive (lt_irrefl 0)
      · calc ((10 : Nat) : ℚ) ^ (-8 : Int) = 1 / 10 ^ 8 := by norm_num
          _ ≤ |x.value| := least
    -- So the first digit stands in the eighth place at the latest.
    have leading := (Int.zpow_le_iff_le_log (by decide) positive).mp least
    -- The last of nine digits is eight places after the first one.
    obtain ⟨more, few, settled, -⟩ := x.settled_spec zero
    have exp : x.settled.exp = x.toExact.log10 - (more + 1 - 1 : Nat) := by
      rw [settled, Exact.toDecimal, if_neg (by exact zero)]
    rw [exp, Exact.log10_eq zero]
    simp only [displayDigits, displayPlaces] at few ⊢
    omega

/-- A float that is zero or not too small is read back from the text that it is displayed as, also
when this is an input line or an initial value. -/
theorem read_display (range : x.value = 0 ∨ 1 / 10 ^ 8 ≤ |x.value|) :
    (∃ read, readFloat x.display = .ok read ∧ read.toSingle? = some x) ∧
      readInput .float (Value.float x).display = .ok (.float x) ∧
        Value.convert .float (.text (Value.float x).display) = .ok (.float x) := by
  -- Displaying limits the places, which changes nothing in the range.
  have read : readFloat x.display = .ok x.settled.toDouble := by
    rw [display, x.limitPlaces_settled range, Decimal.readFloat_fixed]
  have narrowed := x.settled_toSingle?
  have value : (readFloat x.display).toOption.bind Value.ofDouble? = some (.float x) := by
    rw [read]
    exact congrArg (Option.map Value.float) narrowed
  exact ⟨⟨_, read, narrowed⟩, float_of_readFloat value⟩

/-- A float just above the bound is read back from a text with all of the sixteen places. -/
theorem read_display_of_sixteen_places :
    let x : Single := ⟨false, 11259003, -50, by decide⟩
    1 / 10 ^ 8 ≤ |x.value| ∧ x.display = "0.0000000100000035" ∧
      (∃ read, readFloat x.display = .ok read ∧ read.toSingle? = some x) ∧
        readInput .float (Value.float x).display = .ok (.float x) ∧
          Value.convert .float (.text (Value.float x).display) = .ok (.float x) := by
  intro x
  -- The significand is chosen so that the value is just above the bound.
  have range : 1 / 10 ^ 8 ≤ |x.value| := by
    rw [x.abs_value]
    norm_num [Binary.magnitude, x]
  exact ⟨range, by decide +kernel, x.read_display (.inr range)⟩

/-- A float is displayed in fixed point with at most sixteen places. The number in the text is the
decimal that the search for digits has ended with if this has no more places, and it is always the
nearest one with so many places, of two the even one. -/
theorem display_fixedPoint :
    x.settled.negative = x.negative ∧
      ∃ whole fraction, FixedPoint 16 x.display x.negative whole fraction ∧
        ((∃ n : Nat, x.settled.magnitude * 10 ^ 16 = n) →
          Nat.ofDigitChars 10 whole 0 + fractionValue fraction = x.settled.magnitude) ∧
        ∃ n : Nat, (Nat.ofDigitChars 10 whole 0 + fractionValue fraction) * 10 ^ 16 = n ∧
          Nearest (x.settled.magnitude * 10 ^ 16) n := by
  -- Everything is a property of the limited decimal, whose sign is that of the float.
  have places := x.settled.le_limitPlaces_exp displayPlaces
  have sign := x.settled.limitPlaces_negative displayPlaces
  have shape := (x.settled.limitPlaces displayPlaces).fixedPoint_fixed (by decide) places
  have value := (x.settled.limitPlaces displayPlaces).fixedNumeral_magnitude
  rw [sign, x.settled_negative] at shape
  -- The exponent of a numeral in fixed point is nothing, so the digits are the number.
  rw [Numeral.decimal_magnitude] at value
  simp only [Decimal.fixedNumeral, Numeral.exponentValue, zpow_zero, mul_one] at value
  refine ⟨x.settled_negative, _, _, shape, ?_, ?_⟩
  · -- A number with few enough places is not changed by limiting them.
    rintro ⟨n, few⟩
    rw [value]
    exact x.settled.limitPlaces_magnitude displayPlaces few
  · -- In any case the limited number is the nearest with that many places.
    rw [value]
    exact x.settled.limitPlaces_nearest displayPlaces

end Single

end Pseudocode
