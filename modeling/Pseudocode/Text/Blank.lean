/-! Blank characters, and text without its outer blanks. -/

namespace Pseudocode

/-- The characters that count as blank: the ASCII controls from tab to carriage return, the four
information separators, the space, and the spacing characters of Unicode. -/
def isBlank (c : Char) : Bool :=
  -- The ranges are those of the code points.
  let n := c.toNat
  (9 ≤ n && n ≤ 13) || (28 ≤ n && n ≤ 32) || n == 0x85 || n == 0xA0 || n == 0x1680 ||
    (0x2000 ≤ n && n ≤ 0x200A) || n == 0x2028 || n == 0x2029 || n == 0x202F || n == 0x205F ||
    n == 0x3000

/-- Drop the blanks at the end of a text. -/
def trimEnd (text : List Char) : List Char :=
  (text.reverse.dropWhile isBlank).reverse

/-- Drop the blanks at both ends of a text. -/
def trim (text : List Char) : List Char :=
  trimEnd (text.dropWhile isBlank)

/-- Blanks are dropped up to what starts with something visible. -/
theorem dropWhile_isBlank_append {gap text : List Char} (blanks : ∀ c ∈ gap, isBlank c = true)
    (visible : ∀ c ∈ text.head?, isBlank c = false) : (gap ++ text).dropWhile isBlank = text := by
  rw [List.dropWhile_append_of_pos blanks]
  cases text with
  | nil => rfl
  | cons c text => exact List.dropWhile_cons_of_neg (by simp [visible c rfl])

/-- What is left when blanks are dropped does not start with one. -/
theorem head?_dropWhile_isBlank (text : List Char) :
    ∀ c ∈ (text.dropWhile isBlank).head?, isBlank c = false := by
  intro c first
  -- The first character that is left is the first one that is not blank.
  have visible := List.head?_dropWhile_not isBlank text
  rwa [first] at visible

/-- A text that neither starts nor ends with a blank is all that is left when the blanks around it
are dropped. -/
theorem trim_surrounded {before text after : List Char}
    (blanks : ∀ c ∈ before ++ after, isBlank c = true)
    (first : ∀ c ∈ text.head?, isBlank c = false)
    (last : ∀ c ∈ text.getLast?, isBlank c = false) : trim (before ++ (text ++ after)) = text := by
  -- What stands around the text is blank on both sides.
  have front : ∀ c ∈ before, isBlank c = true := fun c member => blanks c (by simp [member])
  have back : ∀ c ∈ after.reverse, isBlank c = true := fun c member => blanks c (by simp_all)
  -- The end of the text is the front of its reverse.
  have kept : (after.reverse ++ text.reverse).dropWhile isBlank = text.reverse :=
    dropWhile_isBlank_append back fun c ends => last c (by rwa [List.head?_reverse] at ends)
  cases text with
  | nil =>
    -- There is nothing visible, so that all of it is dropped at the front.
    have gone : (before ++ after ++ []).dropWhile isBlank = [] :=
      dropWhile_isBlank_append blanks (by simp)
    rw [List.append_nil] at gone
    rw [trim, List.nil_append, gone]
    rfl
  | cons c text =>
    -- The first character of the text stays first when something is put behind it.
    have visible : ∀ d ∈ (c :: text ++ after).head?, isBlank d = false := first
    rw [trim, dropWhile_isBlank_append front visible, trimEnd, List.reverse_append, kept,
      List.reverse_reverse]

end Pseudocode
