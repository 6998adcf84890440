import Pseudocode.Exec.Stmt

/-! Running whole programs, one alone or several in turn. -/

namespace Pseudocode

/-- Run a statement at the top level, getting over the fault that it may meet. -/
def Stmt.run (settings : Settings) (stmt : Stmt) : Exec Flow :=
  contain settings (stmt.exec settings) .normal

/-- Run a statement of a program. At the top level there is no switch to leave. -/
def Stmt.runTop (settings : Settings) (stmt : Stmt) : Exec Unit := do
  match ← stmt.run settings with
  -- Nothing is left to be left, and the statement is over as it is.
  | .exit => recover settings .misplacedBreak
  | .normal => return

/-- Run a program. -/
def Program.exec (settings : Settings) (program : Program) : Exec Unit :=
  program.body.forM (Stmt.runTop settings)

/-- Do a step in a world. -/
def Exec.runIn {α : Type} (step : Exec α) (world : World) : Except Failure α × World :=
  step world

/-- Run a program in a world: how it ended, and the world it left. -/
def Program.run (settings : Settings) (program : Program) (world : World) :
    Except Failure Unit × World :=
  (program.exec settings).runIn world

/-- The world that a run starts in, with the given lines to read. -/
def World.start (input : List String) : World :=
  -- All other parts of the world are empty at first.
  { console := { input := input } }

/-- Several programs run in turn by one interpreter. -/
structure Session where
  /-- The choices made for all of them. -/
  settings : Settings
  /-- The state after the programs so far. -/
  world : World
  /-- What the trace file holds, once the first run has ended and closed it. -/
  closedTrace : Option (Array Event) := none

namespace Session

/-- What the trace file holds, closed or not. -/
def traceFile (session : Session) : Array Event :=
  session.closedTrace.getD session.world.trace

/-- Run the next program: how it ended, the events it traced when the trace file was closed already,
and the session after it. -/
def run (session : Session) (program : Program) :
    Except Failure Unit × Array Event × Session :=
  -- The world keeps the events of all runs, and those of this run are the ones after these.
  let before := session.world.trace.size
  let (outcome, world) := program.run session.settings session.world
  match session.closedTrace with
  -- The first run opens the trace file and closes it, so that its events stand in the file.
  | none => (outcome, #[], { session with world := world, closedTrace := some world.trace })
  | some _ =>
    -- Later runs find the file closed, and their events are shown where they happen.
    (outcome, world.trace.extract before world.trace.size, { session with world := world })

end Session

end Pseudocode
