import Pseudocode.Numeric.Decimal
import Pseudocode.Text.Quoted

/-! What can be wrong with the source text of a program. -/

namespace Pseudocode

/-- The reasons for refusing a source text. -/
inductive SyntaxCause where
  | missingBoundaries
  | missingBegin
  | missingEnd
  | misplacedBegin
  | misplacedEnd
  | nothingBetween
  | unexpected (text : String)
  | integerRange (digits : String)
  | floatRange (digits : String)
deriving DecidableEq, Repr

/-- The words for a refused source text. -/
def SyntaxCause.message : SyntaxCause → String
  | .missingBoundaries => "Missing BEGIN CODE and END CODE"
  | .missingBegin => "Missing BEGIN CODE"
  | .missingEnd => "Missing END CODE"
  | .misplacedBegin => "BEGIN CODE must only be at the beginning of the program"
  | .misplacedEnd => "END CODE must only be at the end of the program"
  | .nothingBetween => "CODE not recognized, cannot be executed"
  | .unexpected text => "unexpected input " ++ quoted text
  | .integerRange digits => "integer literal " ++ digits ++ " out of range"
  | .floatRange digits => "float literal " ++ digits ++ " out of range"

/-- A refused source text, with the place of the trouble as far as it is known. -/
structure SyntaxError where
  /-- The reason. -/
  cause : SyntaxCause
  /-- The line, counted from one. -/
  line : Option Nat := none
  /-- The column, counted from one. -/
  column : Option Nat := none
deriving DecidableEq, Repr

/-- The full message of a refused source text. -/
def SyntaxError.message (error : SyntaxError) : String :=
  let number (n : Nat) : String := integerText n
  let place :=
    match error.line with
    -- Without a line there is no place, and a column is told only with it.
    | none => ""
    | some line => " at " ++ number line ++ ":" ++ (error.column.map number).getD "None"
  "SyntaxError" ++ place ++ ": " ++ error.cause.message

end Pseudocode
