import Pseudocode.Source.SyntaxError
import Pseudocode.Text.Blank
import Pseudocode.Text.Line

/-! The lines that open and close a program, which are looked for before anything else is read. -/

namespace Pseudocode

/-- A line of source text with its number, without outer blanks. -/
structure NumberedLine where
  /-- The number, counted from one. -/
  number : Nat
  /-- The text. -/
  text : List Char

/-- Whether a line has nothing to run: it is empty or only a comment. -/
def isIdleLine (line : List Char) : Bool :=
  -- A line of blanks is empty here, since outer blanks are gone.
  line.isEmpty || line.head? == some '#'

/-- The lines that have something to run. -/
def activeLines (source : List Char) : List NumberedLine :=
  let numbered := (splitLines source).zipIdx 1
  -- Lines are numbered before any of them is dropped, so the numbers are those of the source.
  (numbered.map fun (line, number) => ⟨number, trim line⟩).filter fun line => !isIdleLine line.text

/-- What follows a word at the start of a text. -/
def afterWord? (word text : List Char) : Option (List Char) :=
  if word.isPrefixOf text then some (text.drop word.length) else none

/-- Whether a line is the given word and `CODE`, with blanks between them and perhaps a comment
after them. -/
def isBoundaryLine (word line : List Char) : Bool :=
  match afterWord? word line with
  | none => false
  | some rest =>
    match afterWord? "CODE".toList (rest.dropWhile isBlank) with
    | none => false
    -- At least one blank after the word, and nothing but a comment after that.
    | some after => (rest.head?.map isBlank).getD false && isIdleLine (after.dropWhile isBlank)

/-- Whether a line opens a program. -/
def isBeginLine (line : NumberedLine) : Bool :=
  isBoundaryLine "BEGIN".toList line.text

/-- Whether a line closes a program. -/
def isEndLine (line : NumberedLine) : Bool :=
  isBoundaryLine "END".toList line.text

/-- Check that exactly the first active line opens the program and exactly the last one closes it,
and that something stands between them. -/
def checkBoundaries (source : List Char) : Except SyntaxError Unit :=
  -- Only line numbers are compared from here on, and they are all different.
  let lines := activeLines source
  let numbers := lines.map (·.number)
  let begins := (lines.filter isBeginLine).map (·.number)
  let ends := (lines.filter isEndLine).map (·.number)
  if begins.isEmpty && ends.isEmpty then .error ⟨.missingBoundaries, none, none⟩
  else if begins.isEmpty then .error ⟨.missingBegin, none, none⟩
  else if ends.isEmpty then .error ⟨.missingEnd, none, none⟩
  -- The line reported is the last opening one, which is misplaced if any is.
  else if 1 < begins.length || begins.head? != numbers.head? then
    .error ⟨.misplacedBegin, begins.getLast?, none⟩
  -- For closing lines it is the first one.
  else if 1 < ends.length || ends.getLast? != numbers.getLast? then
    .error ⟨.misplacedEnd, ends.head?, none⟩
  -- Two active lines are the boundaries alone.
  else if lines.length == 2 then .error ⟨.nothingBetween, none, none⟩
  else .ok ()

end Pseudocode
