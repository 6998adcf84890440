import Pseudocode.Fault
import Pseudocode.Syntax.Part

/-! Why a run does not go on. -/

namespace Pseudocode

/-- Why a run does not go on: a fault of the program, a defect of its tree, or a loop that has used
up the turns it was given. -/
inductive Failure where
  | fault (fault : Fault)
  | defect (defect : Defect)
  -- This one alone depends on the fuel, and never arises when there is enough of it.
  | unfinished

/-- A result that may be a fault, as a result of a run. -/
def liftFault {α : Type} : Except Fault α → Except Failure α
  | .ok a => .ok a
  | .error fault => .error (.fault fault)

/-- A place has a node in it that has not got what the place needs. -/
def malformed {α : Type} (node : Node) : Except Failure α :=
  .error (.defect (.malformed node))

/-- The label of a target, which must have one. -/
def Target.label : Target → Except Failure Label
  | .named label => .ok label
  | .stray defect => .error (.defect defect)

end Pseudocode
