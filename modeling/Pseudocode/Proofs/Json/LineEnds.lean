import Pseudocode.Proofs.Json.Scalars
import Pseudocode.Text.Line

/-! JSON text has no carriage returns in it, so that it can be read as a text file without a
change. -/

namespace Pseudocode

/-- A text without carriage returns is not changed by reading its line ends in one form. -/
theorem unifyLineEnds_eq {text : List Char} (free : '\r' ∉ text) : unifyLineEnds text = text := by
  induction text with
  | nil => rfl
  | cons c rest ih =>
    have first : c ≠ '\r' := fun same => free (by simp [same])
    have others := ih fun member => free (by simp [member])
    -- The two cases that change anything need a carriage return.
    unfold unifyLineEnds
    split
    · rename_i same
      cases same
    · rename_i same
      exact absurd (List.cons.inj same).1 first
    · rename_i same
      obtain ⟨rfl, rfl⟩ := List.cons.inj same
      simp [first, others]

/-- No digit is a carriage return. -/
theorem carriageReturn_not_mem_of_digits {digits : List Char}
    (all : digits.all Char.isDigit = true) : '\r' ∉ digits := by
  intro member
  exact absurd (List.all_eq_true.mp all _ member) (by decide)

namespace Json

/-- A character is never written as a carriage return. -/
theorem carriageReturn_not_mem_escapedChar (c : Char) : '\r' ∉ escapedChar c := by
  by_cases same : c = '\r'
  · rw [same]
    decide
  unfold escapedChar
  -- Each form but the last starts with a backslash and goes on with known characters.
  split
  · -- The first of them is the quotation mark.
    simp [Ne.symm same]
  -- Five characters have short forms of their own.
  iterate 5
    split
    · decide
  split
  · -- A control character is written by its number, in digits of base sixteen.
    rename_i control
    have digit : ∀ value < 16, '\r' ≠ Nat.digitChar value := by decide
    have high := digit (c.toNat / 16) (by omega)
    have low := digit (c.toNat % 16) (by omega)
    simp [hexPadded_control _ control, high, low]
  · simp [Ne.symm same]

/-- A text is written without carriage returns. -/
theorem carriageReturn_not_mem_printText (s : String) : '\r' ∉ printText s := by
  simp [printText, carriageReturn_not_mem_escapedChar]

/-- A whole number is written without carriage returns. -/
theorem carriageReturn_not_mem_integerText (n : Int) : '\r' ∉ (integerText n).toList := by
  -- The digits of a number are the only part of it that is not one known sign.
  have digits := carriageReturn_not_mem_of_digits (decimalDigits_isNumeral n.natAbs).digits
  rw [integerText, String.toList_ofList]
  split <;> simp [digits]

/-- A numeral is written without carriage returns. -/
theorem carriageReturn_not_mem_numeral (numeral : Numeral) : '\r' ∉ numeral.text := by
  have whole := carriageReturn_not_mem_of_digits numeral.wholeDigits.digits
  have fraction := carriageReturn_not_mem_of_digits numeral.fractionDigits
  -- None of the four signs around the digits is a carriage return.
  have sign : '\r' ∉ numeral.sign := by
    unfold Numeral.sign
    split <;> decide
  have point : '\r' ∉ numeral.point := by
    unfold Numeral.point
    split <;> simp [fraction]
  have exponent : '\r' ∉ numeral.exponentText := by
    unfold Numeral.exponentText
    cases present : numeral.exponent with
    | none => simp
    | some exponent =>
      obtain ⟨negative, digits⟩ := exponent
      have plain := carriageReturn_not_mem_of_digits
        (numeral.exponentDigits negative digits present).digits
      cases negative <;> simp [plain]
  -- The text is made of these four parts.
  simp [Numeral.text, Numeral.unsigned, sign, whole, point, exponent]

/-- A fraction is written without carriage returns. -/
theorem carriageReturn_not_mem_printDouble (x : Double) : '\r' ∉ printDouble x := by
  cases x with
  | nan => decide
  -- The words for what is no number have been written out.
  | infinite negative => cases negative <;> decide
  | finite x =>
    rw [printDouble, x.text_eq, String.toList_ofList]
    exact carriageReturn_not_mem_numeral x.numeral

/-- A new line is written without a carriage return. -/
theorem carriageReturn_not_mem_newLine (depth : Nat) : '\r' ∉ newLine depth := by
  simp [newLine]

mutual

/-- Data is written without carriage returns. -/
theorem carriageReturn_not_mem_print (data : Json) (depth : Nat) : '\r' ∉ data.print depth := by
  have line := carriageReturn_not_mem_newLine
  -- Only texts could hold one, and there it is escaped.
  -- The items and members are gone through together with the data in them.
  match data with
  | .null => simp [print]
  | .bool b => cases b <;> simp [print]
  | .int n => exact carriageReturn_not_mem_integerText n
  | .float x => exact carriageReturn_not_mem_printDouble x
  | .str s => exact carriageReturn_not_mem_printText s
  | .arr [] => simp [print]
  | .arr (first :: others) =>
    have inside := carriageReturn_not_mem_print first (depth + 1)
    have later := carriageReturn_not_mem_printItems others (depth + 1)
    simp [print, line, inside, later]
  | .obj [] => simp [print]
  | .obj ((key, value) :: others) =>
    have keyed := carriageReturn_not_mem_printText key
    have inside := carriageReturn_not_mem_print value (depth + 1)
    have later := carriageReturn_not_mem_printMembers others (depth + 1)
    simp [print, line, keyed, inside, later]

/-- Further items are written without carriage returns. -/
theorem carriageReturn_not_mem_printItems (items : List Json) (depth : Nat) :
    '\r' ∉ printItems depth items := by
  match items with
  | [] => simp [printItems]
  | item :: others =>
    have inside := carriageReturn_not_mem_print item depth
    have later := carriageReturn_not_mem_printItems others depth
    simp [printItems, carriageReturn_not_mem_newLine, inside, later]

/-- Further members are written without carriage returns. -/
theorem carriageReturn_not_mem_printMembers (members : List (String × Json)) (depth : Nat) :
    '\r' ∉ printMembers depth members := by
  match members with
  | [] => simp [printMembers]
  | (key, value) :: others =>
    have keyed := carriageReturn_not_mem_printText key
    have inside := carriageReturn_not_mem_print value depth
    have later := carriageReturn_not_mem_printMembers others depth
    simp [printMembers, carriageReturn_not_mem_newLine, keyed, inside, later]

end

/-- The text of data is read as it was written. -/
theorem unifyLineEnds_render (data : Json) :
    String.ofList (unifyLineEnds data.render.toList) = data.render := by
  rw [render, String.toList_ofList, unifyLineEnds_eq (carriageReturn_not_mem_print data 0)]

end Json

end Pseudocode
