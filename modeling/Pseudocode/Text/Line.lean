/-! Two ways of seeing lines: splitting a text at every line boundary, and reading `\r` as `\n`. -/

namespace Pseudocode

/-- The characters that end a line of source text. A carriage return followed by a line feed ends
only one. -/
def isLineEnd (c : Char) : Bool :=
  let n := c.toNat
  (10 ≤ n && n ≤ 13) || (28 ≤ n && n ≤ 30) || n == 0x85 || n == 0x2028 || n == 0x2029

/-- Split the rest of a text into lines, given the characters read so far of the current one, the
latest first. A last line that is empty does not count. -/
def splitLinesFrom (current : List Char) : List Char → List (List Char)
  | [] => if current.isEmpty then [] else [current.reverse]
  -- The two characters are looked for before either alone.
  | '\r' :: '\n' :: rest => current.reverse :: splitLinesFrom [] rest
  | c :: rest =>
    if isLineEnd c then current.reverse :: splitLinesFrom [] rest
    -- The latest character stands first, so that adding one takes a single step.
    else splitLinesFrom (c :: current) rest

/-- The lines of a text, without the characters that end them. -/
def splitLines (text : List Char) : List (List Char) :=
  splitLinesFrom [] text

/-- Read every line ending, `\r\n` or a lone `\r`, as a line feed. -/
def unifyLineEnds : List Char → List Char
  | [] => []
  -- Two characters become one, so that no line is counted twice.
  | '\r' :: '\n' :: rest => '\n' :: unifyLineEnds rest
  | c :: rest => (if c == '\r' then '\n' else c) :: unifyLineEnds rest

end Pseudocode
