import Pseudocode.Proofs.Eval.IntegerArithmetic
import Pseudocode.Proofs.Store
import Pseudocode.Proofs.Value.Displayed

/-! Values that are read from text: an input line is read as an initial text is converted, and what
a value is displayed as is read as the value again. A whole number is read from all its spellings.
-/

namespace Pseudocode

section Conversion

variable {type : VarType} {value : Value} {line : String}

/-- A value of the kind of a type stays as it is when it is brought to the type. -/
theorem Value.convert_of_kind (fits : value.kind = type.kind) :
    value.convert type = .ok value := by
  -- Only the pairs in which the kind is that of the type are left.
  cases type <;> cases value <;> cases fits <;> rfl

/-- An input line is read as its text is converted, but for the words when this fails. -/
theorem readInput_eq (type : VarType) (line : String) :
    readInput type line =
      match (Value.text line).convert? type with
      | some value => .ok value
      | none => .error (.invalidConversion
          -- A line is a text, and each of the five types reads both in the same words.
          (if type = .char then .notOneChar line else .line line type)) := by
  cases type <;> rfl

/-- What an input line is read as is of the kind of the type. -/
theorem readInput_kind (read : readInput type line = .ok value) : value.kind = type.kind := by
  -- A failed reading has no value, so only the counterparts of texts are left.
  rw [readInput_eq] at read
  cases converted : (Value.text line).convert? type with
  | none =>
    rw [converted] at read
    cases read
  | some found =>
    rw [converted] at read
    exact Except.ok.inj read ▸ Value.convert?_text_kind converted

/-- Reading an input line as a value of a type and converting the same text to the type agree. Both
give the same value, or both fail with an invalid conversion, and there is no third way. The value
is of the kind of the type, and so stays as it is when it is converted again. -/
theorem readInput_agrees_convert (type : VarType) (line : String) :
    (∀ value, readInput type line = .ok value ↔ (Value.text line).convert type = .ok value) ∧
    ((∃ cause, readInput type line = .error (.invalidConversion cause)) ↔
      ∃ cause, (Value.text line).convert type = .error (.invalidConversion cause)) ∧
    ((∃ value, readInput type line = .ok value) ∨
      ∃ cause, readInput type line = .error (.invalidConversion cause)) ∧
    ∀ value, readInput type line = .ok value →
      value.kind = type.kind ∧ value.convert type = .ok value := by
  have settled : ∀ value, readInput type line = .ok value →
      value.kind = type.kind ∧ value.convert type = .ok value := fun value read =>
    ⟨readInput_kind read, Value.convert_of_kind (readInput_kind read)⟩
  -- Both look whether the text has a counterpart in the type, and go by that alone.
  cases found : (Value.text line).convert? type with
  | none =>
    have read : readInput type line = .error (.invalidConversion
        (if type = .char then .notOneChar line else .line line type)) := by
      rw [readInput_eq, found]
    have converted : (Value.text line).convert type =
        -- The two sides of each equivalence are known, and both fail.
        .error (.invalidConversion (.value (.text line) type)) := by
      rw [Value.convert, found]
    exact ⟨by simp [read, converted], by simp [read, converted], .inr ⟨_, read⟩, settled⟩
  | some value =>
    have read : readInput type line = .ok value := by rw [readInput_eq, found]
    have converted : (Value.text line).convert type = .ok value := by rw [Value.convert, found]
    -- Here both have read the same value.
    exact ⟨by simp [read, converted], by simp [read, converted], .inl ⟨value, read⟩, settled⟩

/-- A line with a blank, a sign and zeros is the integer 7 in both ways, and one with a word is none
in either. -/
theorem readInput_agrees_convert_seven :
    readInput .int " +007" = .ok (.integer 7) ∧
      (Value.text " +007").convert .int = .ok (.integer 7) ∧
      (Value.integer 7).convert .int = .ok (.integer 7) ∧
      ∃ cause, (Value.text "seven").convert .int = .error (.invalidConversion cause) := by
  have read : readInput .int " +007" = .ok (.integer 7) := by decide +kernel
  -- Only the readings themselves are computed; the rest follows from the general statement.
  have refused : readInput .int "seven" = .error (.invalidConversion (.line "seven" .int)) := by
    decide +kernel
  obtain ⟨same, -, -, settled⟩ := readInput_agrees_convert .int " +007"
  obtain ⟨-, fails, -⟩ := readInput_agrees_convert .int "seven"
  exact ⟨read, (same _).mp read, (settled _ read).2, fails.mp ⟨_, refused⟩⟩

end Conversion

section Integers

/-- The signs that a whole number may be written with. -/
inductive SignOf : Int → List Char → Prop where
  /-- A number below zero has a minus sign. -/
  | minus {n : Int} (below : n < 0) : SignOf n ['-']
  /-- Any other number may have a plus sign. -/
  | plus {n : Int} (notBelow : 0 ≤ n) : SignOf n ['+']
  /-- Or it has none. -/
  | bare {n : Int} (notBelow : 0 ≤ n) : SignOf n []

/-- There are no blanks in a sign. -/
theorem SignOf.visible {n : Int} {sign : List Char} (signed : SignOf n sign) :
    ∀ c ∈ sign, isBlank c = false := by
  cases signed with
  | minus => exact List.forall_mem_singleton.mpr rfl
  | plus => exact List.forall_mem_singleton.mpr rfl
  | bare => exact List.forall_mem_nil _

/-- A sign is told from the digits after it, and says whether the number is below zero. -/
theorem SignOf.splitSign_append {n : Int} {sign digits : List Char} (signed : SignOf n sign)
    -- Each sign is the first character there, or else the first character is a digit.
    (numeral : IsNumeral digits) : splitSign (sign ++ digits) = (decide (n < 0), digits) := by
  cases signed with
  | minus below =>
    rw [decide_eq_true below]
    rfl
  | plus notBelow =>
    rw [decide_eq_false (Int.not_lt.mpr notBelow)]
    rfl
  | bare notBelow =>
    have unsigned := numeral.splitSign_append []
    rw [List.append_nil] at unsigned
    rw [List.nil_append, unsigned, decide_eq_false (Int.not_lt.mpr notBelow)]

/-- A spelling of a whole number: its decimal digits with a sign, zeros in front of them, and blanks
around it all. -/
structure IntegerSpelling (n : Int) where
  /-- The blanks before the number. -/
  before : List Char
  /-- The sign, if there is one. -/
  sign : List Char
  /-- The number of zeros in front of the digits. -/
  zeros : Nat
  /-- The blanks after the number. -/
  after : List Char
  /-- There are only blanks around the number. -/
  blanks : ∀ c ∈ before ++ after, isBlank c = true
  /-- The sign is one of the number. -/
  signed : SignOf n sign

namespace IntegerSpelling

variable {n : Int}

/-- The digits of a spelling, with the zeros in front of them. -/
def digits (spelling : IntegerSpelling n) : List Char :=
  List.replicate spelling.zeros '0' ++ decimalDigits n.natAbs

/-- The text of a spelling. -/
def text (spelling : IntegerSpelling n) : String :=
  String.ofList (spelling.before ++ (spelling.sign ++ spelling.digits ++ spelling.after))

/-- The shortest spelling of a whole number. -/
def plain (n : Int) : IntegerSpelling n where
  before := []
  sign := if n < 0 then ['-'] else []
  zeros := 0
  after := []
  blanks := List.forall_mem_nil _
  signed := by
    split
    · exact .minus ‹_›
    · exact .bare (Int.not_lt.mp ‹_›)

/-- The text of a whole number is its shortest spelling. -/
theorem text_plain (n : Int) : (plain n).text = integerText n := by
  -- Without zeros and blanks, the spelling is a sign and the digits.
  simp only [text, plain, digits, integerText]
  split <;> simp

variable (spelling : IntegerSpelling n)

/-- The digits of a spelling are a numeral. -/
theorem isNumeral_digits : IsNumeral spelling.digits :=
  -- The digits of the magnitude are never empty, with or without zeros.
  ⟨List.append_ne_nil_of_right_ne_nil _ (decimalDigits_isNumeral _).nonempty, padded_digits _ _⟩

/-- The digits of a spelling stand for the magnitude of the number. -/
theorem ofDigitChars_digits : Nat.ofDigitChars 10 spelling.digits 0 = n.natAbs := by
  -- Zeros in front do not change the number that digits stand for.
  rw [digits, ofDigitChars_zeros_append, ofDigitChars_decimalDigits]

/-- The number is all that is left of the text when the blanks are dropped. -/
theorem trim_text : trim spelling.text.toList = spelling.sign ++ spelling.digits := by
  have visible : ∀ c ∈ spelling.sign ++ spelling.digits, isBlank c = false := by
    intro c member
    rcases List.mem_append.mp member with sign | digit
    · exact spelling.signed.visible c sign
    · exact isBlank_of_isDigit (List.all_eq_true.mp spelling.isNumeral_digits.digits c digit)
  rw [text, String.toList_ofList]
  -- Neither the sign nor the digits hold a blank, so the ends are visible.
  exact trim_surrounded spelling.blanks (fun c first => visible c (List.mem_of_head? first))
    fun c last => visible c (List.mem_of_getLast? last)

/-- A whole number is read from each of its spellings, unless it does not fit in 32 bits. -/
theorem readInteger_text :
    readInteger spelling.text =
      if fitsInt32 n then .ok n else .error (.integerOutOfRange spelling.text) := by
  have digits := spelling.isNumeral_digits
  -- The magnitude with the sign of the number is the number.
  have signed : (if decide (n < 0) = true then -(n.natAbs : Int) else n.natAbs) = n := by
    simp only [decide_eq_true_eq]
    split <;> omega
  simp only [readInteger, trim_text, spelling.signed.splitSign_append digits, digits.digits,
    spelling.ofDigitChars_digits, signed]
  simp [digits.nonempty]

end IntegerSpelling

/-- The numbers that fit in 32 bits are those from the least to the greatest one. -/
theorem fitsInt32_iff {n : Int} : fitsInt32 n = true ↔ -2 ^ 31 ≤ n ∧ n ≤ 2 ^ 31 - 1 := by
  simp [fitsInt32]

end Integers

section Display

/-- An integer is read from its text. -/
theorem readInteger_integerText (n : Int32) : readInteger (integerText n.toInt) = .ok n.toInt := by
  -- The bounds are those of the type of integers.
  have fits : fitsInt32 n.toInt = true :=
    fitsInt32_iff.mpr ⟨n.le_toInt, Int.le_sub_one_of_lt n.toInt_lt⟩
  rw [← IntegerSpelling.text_plain, IntegerSpelling.readInteger_text, if_pos fits]

/-- A truth value is read from its word. -/
theorem readBoolean_booleanText (b : Bool) : readBoolean (booleanText b) = .ok b := by
  -- There are two words.
  cases b <;> decide

/-- Each kind of value is that of one type at most. -/
theorem VarType.eq_of_kind {type other : VarType} (same : type.kind = other.kind) :
    type = other := by
  cases type <;> cases other <;> cases same <;> rfl

/-- A value that is no float is the counterpart of its text in the type of its kind. -/
theorem Value.convert?_display {type : VarType} {value : Value} (fits : value.kind = type.kind)
    (notFloat : type ≠ .float) : (Value.text value.display).convert? type = some value := by
  -- The kind of the value determines the type, and then one rule is left.
  cases value with
  | integer n =>
    obtain rfl : .int = type := VarType.eq_of_kind fits
    simp only [convert?, display, readInteger_integerText]
    exact congrArg some (ofInt_toInt n)
  | float x => exact absurd (VarType.eq_of_kind fits.symm) notFloat
  | boolean b =>
    obtain rfl : .bool = type := VarType.eq_of_kind fits
    simp only [convert?, display, readBoolean_booleanText]
    rfl
  | character c =>
    obtain rfl : .char = type := VarType.eq_of_kind fits
    simp [convert?, display]
  | text s =>
    obtain rfl : .string = type := VarType.eq_of_kind fits
    rfl
  | absent => cases type <;> cases fits

/-- What a value is displayed as is read as the value again, on an input line for a variable of its
kind, unless it is a float. A whole number that fits in 32 bits is read from each of its spellings,
with blanks around it, with any number of zeros in front of its digits, and with a plus sign if it
is not below zero, just as from its text. One that does not fit is refused in all of them. -/
theorem readInput_displayed :
    (∀ (type : VarType) (value : Value), value.kind = type.kind → type ≠ .float →
      readInput type value.display = .ok value) ∧
    ∀ (n : Int) (spelling : IntegerSpelling n),
      (-2 ^ 31 ≤ n ∧ n ≤ 2 ^ 31 - 1 →
        readInteger (integerText n) = .ok n ∧ readInteger spelling.text = .ok n) ∧
      (n < -2 ^ 31 ∨ 2 ^ 31 - 1 < n →
        readInteger (integerText n) = .error (.integerOutOfRange (integerText n)) ∧
        readInteger spelling.text = .error (.integerOutOfRange spelling.text)) := by
  refine ⟨fun type value fits notFloat => ?_, fun n spelling => ⟨fun range => ?_, fun past => ?_⟩⟩
  · -- The text is converted instead, which is known to give the value.
    rw [readInput_eq, Value.convert?_display fits notFloat]
  · -- Both spellings are instances of one statement, the plain one and the given one.
    have fits := fitsInt32_iff.mpr range
    rw [← IntegerSpelling.text_plain]
    simp only [IntegerSpelling.readInteger_text, fits, if_true, and_self]
  -- One bound is passed, and then both texts are refused.
  · have unfit : fitsInt32 n = false := by
      rw [Bool.eq_false_iff, Ne, fitsInt32_iff]
      omega
    rw [← IntegerSpelling.text_plain]
    simp [IntegerSpelling.readInteger_text, unfit]

/-- The least integer is read from what it is displayed as, and from a text with blanks and zeros.
One less is refused in both. -/
theorem readInput_displayed_least :
    readInput .int (Value.integer (-2147483648)).display = .ok (.integer (-2147483648)) ∧
      readInteger "\t-0002147483648 " = .ok (-2147483648) ∧
      readInteger "-2147483649" = .error (.integerOutOfRange "-2147483649") ∧
      readInteger "\t-0002147483649 " = .error (.integerOutOfRange "\t-0002147483649 ") := by
  -- Three zeros, with a tab in front and a space behind.
  let padded (n : Int) (below : n < 0) : IntegerSpelling n :=
    ⟨['\t'], ['-'], 3, [' '], List.all_eq_true.mp rfl, .minus below⟩
  obtain ⟨displayed, spelled⟩ := readInput_displayed
  have least := (spelled _ (padded (-2147483648) (by decide))).1 (by decide)
  have less := (spelled _ (padded (-2147483649) (by decide))).2 (by decide)
  exact ⟨displayed .int _ rfl (by decide), least.2, less.1, less.2⟩

end Display

end Pseudocode
