import Pseudocode.Fault
import Pseudocode.Syntax.Part

/-! What a trace tells about a run: its events, how closely one must look to see them, and their
lines. -/

namespace Pseudocode

/-- The ways in which a declared variable comes by a new value. -/
inductive Update where
  | assign
  | scan
deriving DecidableEq, Repr

/-- The word for an update in a trace. -/
def Update.word : Update → String
  | .assign => "assign"
  | .scan => "scan"

/-- The events of a run that a trace can tell about. -/
inductive Event where
  /-- A statement of the named kind is started. -/
  | start (statement : String)
  /-- A fault is reported. -/
  | report (fault : Fault)
  /-- A variable is declared, and holds a value. -/
  | declare (label : Label) (typing : Typing) (value : Value)
  /-- A variable is given a value. -/
  | update (how : Update) (label : Label) (value : Value)
  /-- The condition of a statement is found. -/
  | condition (conditional : Conditional) (datum : Datum)
  /-- The subject of a switch is found. -/
  | subject (datum : Datum)

namespace Event

/-- The lowest level of detail at which an event is traced. -/
def level : Event → Nat
  -- The first level tells about statements, the second about variables, the third about decisions.
  | .start _ | .report _ => 1
  | .declare .. | .update .. => 2
  | .condition .. | .subject _ => 3

/-- The line that a trace has for an event. -/
def line : Event → String
  | .start statement => "execute " ++ statement
  | .report fault => "error " ++ fault.message
  | .declare label typing value =>
    "declare " ++ label.text ++ ": " ++ typing.describe ++ " = " ++ value.describe
  | .update how label value => how.word ++ " " ++ label.text ++ " = " ++ value.describe
  | .condition conditional datum => conditional.word ++ " condition " ++ datum.describe
  | .subject datum => "SWITCH subject " ++ datum.describe

end Event

end Pseudocode
