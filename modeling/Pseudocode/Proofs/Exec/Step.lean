import Pseudocode.Exec.Run
import Pseudocode.Proofs.Store.View

/-! What each building block of a run does to the world that it starts in. -/

namespace Pseudocode

namespace Exec

variable {α β : Type}

/-- A step that gives a value leaves the world as it is. -/
@[simp] theorem pure_run (a : α) (world : World) : (pure a : Exec α) world = (.ok a, world) :=
  rfl

/-- A step that fails leaves the world as it is. -/
@[simp] theorem throw_run (failure : Failure) (world : World) :
    (throw failure : Exec α) world = (.error failure, world) :=
  rfl

/-- Looking at the world does not change it. -/
@[simp] theorem get_run (world : World) : (get : Exec World) world = (.ok world, world) :=
  rfl

/-- Setting the world forgets the one before. -/
@[simp] theorem set_run (next world : World) : (set next : Exec PUnit) world = (.ok ⟨⟩, next) :=
  rfl

/-- Modifying the world applies the change to it. -/
@[simp] theorem modify_run (change : World → World) (world : World) :
    (modify change : Exec PUnit) world = (.ok ⟨⟩, change world) :=
  rfl

/-- Two steps in turn: the second starts where the first has ended, unless the first fails. -/
theorem bind_run (first : Exec α) (next : α → Exec β) (world : World) :
    (first >>= next) world =
      match first world with
      | (.ok a, after) => next a after
      | (.error failure, after) => (.error failure, after) := by
  -- Only the outcome of the first step decides whether there is a second one.
  change (ExceptT.bind first next) world = _
  simp only [ExceptT.bind, ExceptT.mk, bind, StateT.bind]
  rcases first world with ⟨_ | _, _⟩ <;> rfl

/-- A value that is passed on changed: the step itself is the same. -/
theorem map_run (change : α → β) (step : Exec α) (world : World) :
    (change <$> step) world =
      match step world with
      | (.ok a, after) => (.ok (change a), after)
      | (.error failure, after) => (.error failure, after) := by
  -- The change is applied only to the value of a step that succeeds.
  change (ExceptT.map change step) world = _
  simp only [ExceptT.map, ExceptT.mk, bind, StateT.bind]
  rcases step world with ⟨_ | _, _⟩ <;> rfl

end Exec

/-- A result that is taken over leaves the world as it is. -/
@[simp] theorem ofResult_run {α : Type} (result : Except Failure α) (world : World) :
    ofResult result world = (result, world) := by
  -- Both kinds of result are passed on unchanged.
  cases result <;> rfl

/-- Stopping with a fault leaves the world as it is. -/
@[simp] theorem raise_run {α : Type} (fault : Fault) (world : World) :
    (raise fault : Exec α) world = (.error (.fault fault), world) :=
  rfl

/-- The world after an event has been traced, if it is traced at all. -/
def World.noting (settings : Settings) (event : Event) (world : World) : World :=
  -- Events above the level of detail are left out.
  if event.level ≤ settings.debug then { world with trace := world.trace.push event } else world

/-- Tracing an event succeeds. -/
@[simp] theorem note_run (settings : Settings) (event : Event) (world : World) :
    note settings event world = (.ok (), world.noting settings event) := by
  -- The level of the event decides whether the trace grows.
  unfold note World.noting
  split <;> rfl

/-- Tracing leaves the variables alone. -/
@[simp] theorem World.noting_store (settings : Settings) (event : Event) (world : World) :
    (world.noting settings event).store = world.store := by
  unfold noting
  split <;> rfl

/-- Tracing leaves the console alone. -/
@[simp] theorem World.noting_console (settings : Settings) (event : Event) (world : World) :
    (world.noting settings event).console = world.console := by
  unfold noting
  split <;> rfl

/-- Tracing reports nothing. -/
@[simp] theorem World.noting_faults (settings : Settings) (event : Event) (world : World) :
    (world.noting settings event).faults = world.faults := by
  unfold noting
  split <;> rfl

/-- The world after a line has been written. -/
def World.writing (line : String) (world : World) : World :=
  { world with console := { world.console with output := world.console.output.push line } }

/-- Writing a line succeeds. -/
@[simp] theorem writeLine_run (line : String) (world : World) :
    writeLine line world = (.ok (), world.writing line) :=
  rfl

/-- The world after a line has been read. -/
def World.reading (world : World) : World :=
  { world with console := world.console.readLine.2 }

/-- Reading a line succeeds. -/
@[simp] theorem nextLine_run (world : World) :
    nextLine world = (.ok world.console.readLine.1, world.reading) :=
  rfl

/-- The world after a fault has been recorded, traced and shown. -/
def World.reporting (settings : Settings) (fault : Fault) (world : World) : World :=
  -- The fault is recorded first, traced next, and shown last.
  let traced := { world with faults := world.faults.push fault }.noting settings (.report fault)
  { traced with
    console :=
      { traced.console with reports := traced.console.reports.push ("Error: " ++ fault.message) } }

/-- Reporting a fault succeeds. -/
@[simp] theorem report_run (settings : Settings) (fault : Fault) (world : World) :
    report settings fault world = (.ok (), world.reporting settings fault) := by
  -- The three changes are made one after the other, and none of them can fail.
  simp only [report, Exec.bind_run, Exec.modify_run, note_run, World.reporting]

/-- A report adds its fault to those before it. -/
@[simp] theorem World.reporting_faults (settings : Settings) (fault : Fault) (world : World) :
    (world.reporting settings fault).faults = world.faults.push fault := by
  -- The trace is no part of what is asked about.
  simp [reporting]

/-- A report leaves the variables alone. -/
@[simp] theorem World.reporting_store (settings : Settings) (fault : Fault) (world : World) :
    (world.reporting settings fault).store = world.store := by
  simp [reporting]

/-- A report changes nothing on the console but what is shown of it. -/
@[simp] theorem World.reporting_console (settings : Settings) (fault : Fault) (world : World) :
    (world.reporting settings fault).console =
      { world.console with
        reports := world.console.reports.push ("Error: " ++ fault.message) } := by
  simp [reporting]

/-- Getting over a fault: it stops a strict run, and any run when it is fatal; else it is
reported. -/
theorem recover_run (settings : Settings) (fault : Fault) (world : World) :
    recover settings fault world =
      if fault.isFatal || settings.strict then (.error (.fault fault), world)
      else (.ok (), world.reporting settings fault) := by
  -- Only a reported fault leaves a trace in the world.
  unfold recover
  split <;> simp

/-- A contained step: a fault is got over, and everything else passes through. -/
theorem contain_run {α : Type} (settings : Settings) (step : Exec α) (instead : α)
    (world : World) :
    contain settings step instead world =
      match step world with
      | (.error (.fault fault), after) =>
        if fault.isFatal || settings.strict then (.error (.fault fault), after)
        else (.ok instead, after.reporting settings fault)
      | result => result := by
  -- The handler sees the world that the failed step has left.
  unfold contain
  change (ExceptT.tryCatch step _) world = _
  -- The handler is the one of the monad, which keeps the world of the failure.
  simp only [ExceptT.tryCatch, ExceptT.mk, bind, StateT.bind]
  rcases step world with ⟨failure | a, after⟩
  · cases failure with
    | fault fault =>
      -- The recovery decides whether the stand-in value is given.
      change (recover settings fault >>= fun _ => pure instead) after = _
      rw [Exec.bind_run, recover_run]
      by_cases stops : (fault.isFatal || settings.strict) = true
      · simp only [if_pos stops]
      · simp only [if_neg stops, Exec.pure_run]
    | defect defect => rfl
    | unfinished => rfl
  · rfl

/-- The world with other variables. -/
def World.storing (store : Store) (world : World) : World :=
  { world with store := store }

/-- Declaring a name, by what the store tells about its label: a fault is got over, and a new
variable is traced. -/
theorem declareName_run (settings : Settings) (typing : Typing) (initial : Option Datum)
    (label : Label) (world : World) :
    declareName settings typing initial (.named label) world =
      match Store.startingValue label typing initial (world.store.view label) with
      | .error (.fault fault) => recover settings fault world
      | .error failure => (.error failure, world)
      | .ok value =>
        (.ok (), (world.storing (world.store.add label typing value)).noting settings
          (.declare label typing value)) := by
  -- The variables are looked at once, and everything else follows from what they answer.
  simp only [declareName, Target.label, Exec.bind_run, ofResult_run, Exec.get_run,
    Store.declare_eq]
  cases starts : Store.startingValue label typing initial (world.store.view label) with
  -- Nothing has been stored yet, so that a failure finds the world as it was.
  | error failure => cases failure <;> rfl
  | ok value =>
    -- Only a free label has a value to start with, and so the new variable is found under it.
    have fresh := Store.view_eq_none_of_startingValue starts
    simp only [Except.map, Exec.bind_run, Exec.set_run, ofResult_run,
      Store.get_add _ value fresh, liftFault]
    exact note_run settings _ _

/-- Giving a variable a value: it is traced, unless the assignment fails. -/
theorem assignLabel_run (settings : Settings) (how : Update) (datum : Datum) (label : Label)
    (world : World) :
    assignLabel settings how datum label world =
      match world.store.assign label datum with
      | .error failure => (.error failure, world)
      | .ok store =>
        match datum.toValue with
        | .error failure => (.error failure, world.storing store)
        | .ok value =>
          (.ok (), (world.storing store).noting settings (.update how label value)) := by
  -- The store decides; the trace comes after it.
  simp only [assignLabel, Exec.bind_run, ofResult_run, Exec.get_run]
  cases world.store.assign label datum with
  -- Nothing has been stored.
  | error failure => rfl
  | ok store =>
    -- The value has been stored, whether or not it can be traced.
    simp only [Exec.set_run]
    cases datum.toValue with
    | error failure => rfl
    | ok value => exact note_run settings _ _

end Pseudocode
