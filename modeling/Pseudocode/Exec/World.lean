import Pseudocode.Eval.Expr
import Pseudocode.Exec.Trace

/-! What a run reads and changes: its settings, its console, its variables, and what it records. -/

namespace Pseudocode

/-- The choices that a run is started with. -/
structure Settings where
  /-- Whether every fault stops the run. -/
  strict : Bool := false
  /-- How much is traced: nothing at zero, and everything from three on. -/
  debug : Nat := 0
  -- A limit that no run comes to makes the loop total.
  /-- The number of turns that a loop may take. -/
  turns : Nat := 4611686018427387904

/-- A console with input lines waiting. -/
structure Console where
  /-- The lines that have not been read. -/
  input : List String := []
  /-- The number of lines that have been asked for. -/
  linesRead : Nat := 0
  /-- The lines that have been written. -/
  output : Array String := #[]
  /-- The fault reports that have been shown. -/
  reports : Array String := #[]

/-- The state of a run. -/
structure World where
  /-- The variables. -/
  store : Store := .empty
  /-- The console. -/
  console : Console := {}
  /-- The faults that have been reported. -/
  faults : Array Fault := #[]
  /-- The events that have been traced. -/
  trace : Array Event := #[]

/-- How a statement ends: by itself, or on its way out of a switch. -/
inductive Flow where
  | normal
  | exit
deriving DecidableEq, Repr

/-- A step of a run. What it has changed stays changed when it fails. -/
abbrev Exec := ExceptT Failure (StateM World)

/-- Read a line. Past the end of the input every line is empty. -/
def Console.readLine (console : Console) : String × Console :=
  match console.input with
  -- A line that is asked for counts as read, even if there is none.
  | [] => ("", { console with linesRead := console.linesRead + 1 })
  | line :: rest => (line, { console with input := rest, linesRead := console.linesRead + 1 })

/-- Stop with a fault. -/
def raise {α : Type} (fault : Fault) : Exec α :=
  throw (.fault fault)

/-- Take over the result of a computation that changes nothing. -/
def ofResult {α : Type} : Except Failure α → Exec α
  | .ok a => pure a
  | .error failure => throw failure

/-- Trace an event, if the run is traced in enough detail. -/
def note (settings : Settings) (event : Event) : Exec Unit :=
  -- An event of a higher level than the run is traced at leaves no mark.
  if event.level ≤ settings.debug then
    modify fun world => { world with trace := world.trace.push event }
  else pure ()

/-- Write a line. -/
def writeLine (line : String) : Exec Unit :=
  modify fun world =>
    { world with console := { world.console with output := world.console.output.push line } }

/-- Read a line. -/
def nextLine : Exec String := do
  let world ← get
  let (line, console) := world.console.readLine
  set { world with console := console }
  return line

/-- Record a fault and show it. -/
def report (settings : Settings) (fault : Fault) : Exec Unit := do
  -- The fault is recorded before it is traced, and shown last.
  modify fun world => { world with faults := world.faults.push fault }
  note settings (.report fault)
  modify fun world =>
    { world with
      console :=
        { world.console with reports := world.console.reports.push ("Error: " ++ fault.message) } }

/-- Get over a fault by reporting it, unless it must stop the run. -/
def recover (settings : Settings) (fault : Fault) : Exec Unit :=
  -- A strict run gets over nothing.
  if fault.isFatal || settings.strict then raise fault else report settings fault

/-- Do a step, and get over the fault that it may meet. -/
def contain {α : Type} (settings : Settings) (step : Exec α) (instead : α) : Exec α :=
  tryCatch step fun
    -- Only faults of the language are got over; a defect of the program text is not.
    | .fault fault => do
      recover settings fault
      return instead
    | failure => throw failure

end Pseudocode
