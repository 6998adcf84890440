import Pseudocode.Json.Basic

/-! Writing JSON, two blanks deeper for each level. -/

namespace Pseudocode

namespace Json

/-- How one character stands inside a JSON text. Only the quote, the backslash and the controls
need a form of their own. -/
def escapedChar (c : Char) : List Char :=
  if c == '"' || c == '\\' then ['\\', c]
  else if c == '\n' then ['\\', 'n']
  else if c == '\r' then ['\\', 'r']
  else if c == '\t' then ['\\', 't']
  -- Backspace and form feed have no character notation of their own here.
  else if c.toNat == 8 then ['\\', 'b']
  else if c.toNat == 12 then ['\\', 'f']
  -- The other controls are numbered; characters beyond ASCII stand as they are.
  else if c.toNat < 32 then '\\' :: 'u' :: hexPadded 4 c.toNat
  else [c]

/-- A text in JSON. -/
def printText (s : String) : List Char :=
  '"' :: s.toList.flatMap escapedChar ++ ['"']

/-- A fraction in JSON, with words for what is not finite. -/
def printDouble : Double → List Char
  | .nan => "NaN".toList
  | .infinite negative => (if negative then "-Infinity" else "Infinity").toList
  | .finite x => (Double.finite x).text.toList

/-- The start of a new line at a depth. -/
def newLine (depth : Nat) : List Char :=
  '\n' :: List.replicate (2 * depth) ' '

mutual

/-- JSON data written at a depth. -/
def print (depth : Nat) : Json → List Char
  | .null => "null".toList
  | .bool b => (if b then "true" else "false").toList
  | .int n => (integerText n).toList
  | .float x => printDouble x
  | .str s => printText s
  -- An empty array stays on its line; any other has its items one level deeper.
  | .arr [] => "[]".toList
  | .arr (first :: rest) =>
    -- The closing bracket stands at the depth of the array itself.
    '[' :: newLine (depth + 1) ++ first.print (depth + 1) ++ printItems (depth + 1) rest ++
      newLine depth ++ [']']
  | .obj [] => "\x7b\x7d".toList
  | .obj ((key, value) :: rest) =>
    '{' :: newLine (depth + 1) ++ printText key ++ ": ".toList ++ value.print (depth + 1) ++
      printMembers (depth + 1) rest ++ newLine depth ++ ['}']

/-- The items after the first one, each behind a comma and on a line of its own. -/
def printItems (depth : Nat) : List Json → List Char
  | [] => []
  | item :: rest => ',' :: newLine depth ++ item.print depth ++ printItems depth rest

/-- The members after the first one, each behind a comma and on a line of its own. -/
def printMembers (depth : Nat) : List (String × Json) → List Char
  | [] => []
  | (key, value) :: rest =>
    ',' :: newLine depth ++ printText key ++ ": ".toList ++ value.print depth ++
      printMembers depth rest

end

/-- The JSON text of data, without a line end after it. -/
def render (data : Json) : String :=
  String.ofList (data.print 0)

end Json

end Pseudocode
