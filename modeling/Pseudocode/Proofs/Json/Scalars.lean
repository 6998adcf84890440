import Mathlib.Tactic.IntervalCases
import Pseudocode.Json.Printer
import Pseudocode.Json.Reader
import Pseudocode.Proofs.Numeric.Numerals

/-! The simple data of JSON: each text and each number is read back as one token, whatever follows
it. -/

namespace Pseudocode

namespace Json

/-- Each hexadecimal digit is read as its own value. -/
theorem hexValue?_digitChar : ∀ digit < 16, hexValue? (Nat.digitChar digit) = some digit := by
  -- There are sixteen digits, and all of them are tried.
  decide

/-- A control character has two zeros and two digits. -/
theorem hexPadded_control :
    ∀ code < 32, hexPadded 4 code =
      ['0', '0', Nat.digitChar (code / 16), Nat.digitChar (code % 16)] := by
  decide

/-- A numbered control character is read as its number. -/
theorem readText_control (codes : List Nat) {code : Nat} (control : code < 32) (rest : List Char) :
    readText codes .escape ('u' :: hexPadded 4 code ++ rest) =
      readText (code :: codes) .plain rest := by
  have high := hexValue?_digitChar (code / 16) (by omega)
  have low := hexValue?_digitChar (code % 16) (by omega)
  have zero : hexValue? '0' = some 0 := by decide
  have whole : 16 * (code / 16) + code % 16 = code := by omega
  -- The four digits are gathered from the left.
  simp [hexPadded_control code control, readText, high, low, zero, whole]

/-- A character is read back, however it stands in a text. -/
theorem readText_escapedChar (codes : List Nat) (c : Char) (rest : List Char) :
    readText codes .plain (escapedChar c ++ rest) = readText (c.toNat :: codes) .plain rest := by
  unfold escapedChar
  -- The forms are looked at in the order in which they are chosen.
  by_cases special : (c == '"' || c == '\\') = true
  · -- A quotation mark or a backslash has a backslash before it.
    rw [if_pos special]
    rcases (by simpa using special : c = '"' ∨ c = '\\') with rfl | rfl <;> rfl
  rw [if_neg special]
  by_cases lineFeed : (c == '\n') = true
  · rw [if_pos lineFeed, eq_of_beq lineFeed]
    rfl
  rw [if_neg lineFeed]
  by_cases carriageReturn : (c == '\r') = true
  · rw [if_pos carriageReturn, eq_of_beq carriageReturn]
    rfl
  rw [if_neg carriageReturn]
  by_cases tab : (c == '\t') = true
  · rw [if_pos tab, eq_of_beq tab]
    rfl
  rw [if_neg tab]
  by_cases backspace : (c.toNat == 8) = true
  · rw [if_pos backspace, eq_of_beq backspace]
    rfl
  rw [if_neg backspace]
  by_cases formFeed : (c.toNat == 12) = true
  · rw [if_pos formFeed, eq_of_beq formFeed]
    rfl
  rw [if_neg formFeed]
  -- The letters are used up, so that the number of the character decides.
  by_cases control : c.toNat < 32
  · rw [if_pos control]
    exact readText_control codes control rest
  · -- Any other character stands for itself.
    have plain : c ≠ '"' ∧ c ≠ '\\' := by simpa using special
    simp [control, readText, plain]

/-- The characters of a text are read back up to its closing quote. -/
theorem readText_escaped (codes : List Nat) (chars rest : List Char) :
    readText codes .plain (chars.flatMap escapedChar ++ '"' :: rest) =
      some (String.ofList (joinHalves (codes.reverse ++ chars.map Char.toNat)), rest) := by
  -- What has been read so far is general, and the quote ends it.
  induction chars generalizing codes with
  | nil => simp [readText]
  | cons c chars ih =>
    rw [List.flatMap_cons, List.append_assoc, readText_escapedChar, ih]
    simp

/-- No character is half of another. -/
theorem joinHalves_cons (c : Char) (codes : List Nat) :
    joinHalves (c.toNat :: codes) = c :: joinHalves codes := by
  -- A code that is alone has no other half.
  cases codes with
  | nil => simp [joinHalves]
  | cons low rest =>
    -- The numbers of the halves are none of characters.
    have valid : c.toNat < 0xD800 ∨ 0xDFFF < c.toNat ∧ c.toNat < 0x110000 := c.valid
    have whole :
        (0xD800 ≤ c.toNat && c.toNat < 0xDC00 && 0xDC00 ≤ low && low < 0xE000) = false := by
      simp only [Bool.and_eq_false_iff, decide_eq_false_iff_not]
      omega
    rw [joinHalves, if_neg (by rw [whole]; decide), Char.ofNat_toNat]

/-- The numbers of characters stand for the characters. -/
theorem joinHalves_toNat (chars : List Char) : joinHalves (chars.map Char.toNat) = chars := by
  induction chars with
  | nil => rfl
  | cons c chars ih => rw [List.map_cons, joinHalves_cons, ih]

/-- A text is read back as one token. -/
theorem readToken_printText (s : String) (rest : List Char) :
    readToken (printText s ++ rest) = some (.scalar (.str s), rest) := by
  have read := readText_escaped [] s.toList rest
  rw [List.reverse_nil, List.nil_append, joinHalves_toNat, String.ofList_toList] at read
  simp only [printText, List.cons_append, List.append_assoc, List.nil_append]
  show (readText [] .plain _).map _ = _
  -- The quote in front decides that a text follows.
  rw [read]
  rfl

/-- Nothing at the start of a text can belong to a number before it. -/
def EndsNumber (rest : List Char) : Prop :=
  rest.head?.all (fun c => !c.isDigit && c != '.' && c != 'e' && c != 'E') = true

namespace EndsNumber

variable {rest : List Char}

/-- No digit follows. -/
theorem noDigit (ends : EndsNumber rest) : rest.head?.all (fun c => !c.isDigit) = true := by
  cases rest with
  -- At the end of the text nothing follows.
  | nil => rfl
  | cons c rest =>
    simp only [EndsNumber, List.head?_cons, Option.all_some, Bool.and_eq_true] at ends ⊢
    exact ends.1.1.1

/-- No point and no digits after it follow. -/
theorem splitPoint_eq (ends : EndsNumber rest) : splitPoint rest = ([], rest) := by
  cases rest with
  | nil => rfl
  | cons c rest =>
    have other : c ≠ '.' := by
      simp only [EndsNumber, List.head?_cons, Option.all_some, Bool.and_eq_true] at ends
      simpa using ends.1.1.2
    -- Only a point would be split off.
    unfold splitPoint
    split
    · rename_i same
      exact absurd (List.cons.inj same).1 other
    · rfl

/-- No exponent follows. -/
theorem splitExponent_eq (ends : EndsNumber rest) : splitExponent rest = ([], rest) := by
  cases rest with
  | nil => rfl
  | cons c rest =>
    have other : (c == 'e' || c == 'E') = false := by
      simp only [EndsNumber, List.head?_cons, Option.all_some, Bool.and_eq_true, bne_iff_ne,
        ne_eq] at ends
      simp [ends]
    simp [splitExponent, other]

end EndsNumber

/-- The whole part is told from what follows. -/
theorem splitWhole_append {whole rest : List Char} (digits : IsNumeral whole)
    (plain : whole = ['0'] ∨ whole.head? ≠ some '0')
    (stops : rest.head?.all (fun c => !c.isDigit) = true) :
    splitWhole (whole ++ rest) = (whole, rest) := by
  rcases plain with rfl | other
  · -- A zero alone is taken at once.
    rfl
  · unfold splitWhole
    split
    · rename_i more same
      -- The first digit is the first of the whole text.
      rw [← List.head?_append_of_ne_nil _ digits.nonempty, same] at other
      exact absurd rfl other
    · rw [List.span_eq_takeWhile_dropWhile, Lexer.takeWhile_append_rest digits.digits stops,
        Lexer.dropWhile_append_rest digits.digits stops]

/-- A whole number is read back. -/
theorem readNumber_integer (negative : Bool) (n : Nat) {rest : List Char} (ends : EndsNumber rest) :
    readNumber negative (decimalDigits n ++ rest) =
      some (.int (if negative then -(n : Int) else n), rest) := by
  have digits := decimalDigits_isNumeral n
  -- All digits belong to the number, and none of them follows it.
  have whole := splitWhole_append digits (decimalDigits_plain n) ends.noDigit
  simp only [readNumber, whole, ends.splitPoint_eq, ends.splitExponent_eq]
  simp [digits.nonempty, ofDigitChars_decimalDigits]

section Numerals

variable (numeral : Numeral) {rest : List Char}

/-- What follows the digits after the point is no digit. -/
theorem exponentText_append_noDigit (ends : EndsNumber rest) :
    (numeral.exponentText ++ rest).head?.all (fun c => !c.isDigit) = true := by
  unfold Numeral.exponentText
  -- With an exponent its letter comes first.
  split
  · exact ends.noDigit
  · rfl

/-- The point and its digits are told from the exponent. -/
theorem splitPoint_append (ends : EndsNumber rest) :
    splitPoint (numeral.point ++ (numeral.exponentText ++ rest)) =
      (numeral.point, numeral.exponentText ++ rest) := by
  have stops := exponentText_append_noDigit numeral ends
  unfold Numeral.point
  split
  · -- Without a point the exponent follows at once, or the rest does.
    rw [List.nil_append]
    unfold Numeral.exponentText
    split
    · exact ends.splitPoint_eq
    · rfl
  · rename_i some
    rw [List.cons_append, splitPoint, List.span_eq_takeWhile_dropWhile,
      Lexer.takeWhile_append_rest numeral.fractionDigits stops,
      Lexer.dropWhile_append_rest numeral.fractionDigits stops]
    exact if_neg some

/-- The exponent is told from what follows. -/
theorem splitExponent_append (ends : EndsNumber rest) :
    splitExponent (numeral.exponentText ++ rest) = (numeral.exponentText, rest) := by
  unfold Numeral.exponentText
  cases present : numeral.exponent with
  -- Without an exponent nothing is split off.
  | none => exact ends.splitExponent_eq
  | some exponent =>
    obtain ⟨negative, digits⟩ := exponent
    have isNumeral := numeral.exponentDigits negative digits present
    have taken := Lexer.takeWhile_append_rest isNumeral.digits ends.noDigit
    have left := Lexer.dropWhile_append_rest isNumeral.digits ends.noDigit
    -- The sign belongs to the exponent, and so do all digits after it.
    cases negative <;>
      simp [splitExponent, List.span_eq_takeWhile_dropWhile, taken, left, isNumeral.nonempty]

/-- A numeral with a point or an exponent is read as the fraction that it stands for. -/
theorem readNumber_numeral (parts : numeral.point ≠ [] ∨ numeral.exponentText ≠ [])
    (ends : EndsNumber rest) :
    readNumber numeral.negative (numeral.unsigned ++ rest) =
      some (.float numeral.decimal.toDouble, rest) := by
  have stops : (numeral.point ++ (numeral.exponentText ++ rest)).head?.all
      (fun c => !c.isDigit) = true := by
    unfold Numeral.point
    split
    · exact exponentText_append_noDigit numeral ends
    · rfl
  have whole := splitWhole_append numeral.wholeDigits numeral.plain stops
  -- The number is not taken for a whole one.
  have fraction : (numeral.point.isEmpty && numeral.exponentText.isEmpty) = false := by
    rcases parts with some | some <;> simp [some]
  have nonempty : numeral.whole.isEmpty = false := by simp [numeral.wholeDigits.nonempty]
  have text : numeral.sign ++ numeral.whole ++ numeral.point ++ numeral.exponentText =
      numeral.text := by
    simp [Numeral.text, Numeral.unsigned]
  -- Each part is split off where the one before it ends.
  simp only [readNumber, Numeral.unsigned, List.append_assoc, whole,
    splitPoint_append numeral ends, splitExponent_append numeral ends, fraction, nonempty]
  show (Decimal.read?
    (numeral.sign ++ (numeral.whole ++ (numeral.point ++ numeral.exponentText)))).map _ = _
  -- What was split is the text of the numeral again.
  simp only [List.append_assoc] at text
  rw [text, numeral.read?_text]
  rfl

end Numerals

/-- A digit is the one that its number stands for. -/
theorem exists_digitChar {c : Char} (digit : c.isDigit = true) :
    ∃ value < 10, c = Nat.digitChar value := by
  have range : 48 ≤ c.toNat ∧ c.toNat ≤ 57 := by
    simpa [Char.isDigit, Char.le_def, UInt32.le_iff_toNat_le] using digit
  refine ⟨c.toNat - 48, by omega, Char.toNat_inj.mp ?_⟩
  rw [Nat.toNat_digitChar_of_lt_ten (by omega)]
  omega

/-- A token that starts with a digit, or with one behind a minus sign, is a number. -/
theorem readToken_number {text : List Char} (starts : text.head?.any Char.isDigit = true) :
    readToken text = (readNumber false text).map (fun (data, after) => (.scalar data, after)) ∧
      readToken ('-' :: text) =
        (readNumber true text).map (fun (data, after) => (.scalar data, after)) := by
  cases text with
  | nil => simp at starts
  | cons c rest =>
    obtain ⟨value, small, rfl⟩ := exists_digitChar (by simpa using starts)
    -- No mark and no word starts with a digit, nor with a minus sign before one.
    interval_cases value <;> exact ⟨rfl, rfl⟩

/-- A numeral starts with a digit, whatever follows it. -/
theorem head?_append_isDigit {digits : List Char} (isNumeral : IsNumeral digits)
    (rest : List Char) : (digits ++ rest).head?.any Char.isDigit = true := by
  obtain ⟨nonempty, all⟩ := isNumeral
  cases digits with
  | nil => exact absurd rfl nonempty
  | cons c digits => simpa using List.all_eq_true.mp all c List.mem_cons_self

/-- A whole number is read back as one token. -/
theorem readToken_integer (n : Int) {rest : List Char} (ends : EndsNumber rest) :
    readToken ((integerText n).toList ++ rest) = some (.scalar (.int n), rest) := by
  obtain ⟨positive, negative⟩ :=
    readToken_number (head?_append_isDigit (decimalDigits_isNumeral n.natAbs) rest)
  rw [integerText, String.toList_ofList]
  -- A minus sign stands in front exactly when the number is below zero.
  split
  · have minus : -(n.natAbs : Int) = n := by omega
    rw [List.cons_append, negative, readNumber_integer true _ ends]
    simp only [Option.map_some, if_true, minus]
  · have plus : (n.natAbs : Int) = n := by omega
    rw [positive, readNumber_integer false _ ends]
    simp only [Option.map_some, Bool.false_eq_true, if_false, plus]

/-- A whole number has a digit. -/
theorem integerText_ne_nil (n : Int) : (integerText n).toList ≠ [] := by
  -- A minus sign is a character, too.
  rw [integerText, String.toList_ofList]
  split
  · exact List.cons_ne_nil _ _
  · exact (decimalDigits_isNumeral _).nonempty

/-- A numeral with a point or an exponent is read as one token. -/
theorem readToken_numeral (numeral : Numeral)
    (parts : numeral.point ≠ [] ∨ numeral.exponentText ≠ []) {rest : List Char}
    (ends : EndsNumber rest) :
    readToken (numeral.text ++ rest) = some (.scalar (.float numeral.decimal.toDouble), rest) := by
  have read := readNumber_numeral numeral parts ends
  have starts : (numeral.unsigned ++ rest).head?.any Char.isDigit = true := by
    rw [Numeral.unsigned, List.append_assoc]
    exact head?_append_isDigit numeral.wholeDigits _
  obtain ⟨positive, negative⟩ := readToken_number starts
  rw [Numeral.text, List.append_assoc, Numeral.sign]
  -- The sign tells which of the two readings applies.
  cases minus : numeral.negative with
  | false =>
    rw [minus] at read
    simp only [Bool.false_eq_true, if_false, List.nil_append, positive, read, Option.map_some]
  | true =>
    rw [minus] at read
    simp only [if_true, List.singleton_append, negative, read, Option.map_some]

/-- A fraction is read back as one token, also when it is not finite. -/
theorem readToken_printDouble (x : Double) {rest : List Char} (ends : EndsNumber rest) :
    readToken (printDouble x ++ rest) = some (.scalar (.float x), rest) := by
  -- What is no finite number has a word of its own.
  cases x with
  | nan => rfl
  | infinite negative => cases negative <;> rfl
  | finite x =>
    rw [printDouble, x.text_eq, String.toList_ofList,
      readToken_numeral x.numeral x.numeral_fraction_or_exponent ends, x.numeral_toDouble]

/-- A fraction has a digit or a letter. -/
theorem printDouble_ne_nil (x : Double) : printDouble x ≠ [] := by
  cases x with
  | nan => simp [printDouble]
  | infinite negative => cases negative <;> simp [printDouble]
  | finite x =>
    have nonempty := x.numeral.wholeDigits.nonempty
    simp [printDouble, x.text_eq, Numeral.text, Numeral.unsigned, nonempty]

end Json

end Pseudocode
