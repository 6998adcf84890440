import Pseudocode.Proofs.Exec.Walk

/-! What the single steps of a run leave alone: whatever tracing, writing and reading keep, is kept
by all steps that are made of them. -/

namespace Pseudocode

/-- A relation between worlds that tracing, writing and reading respect. -/
structure Frame where
  /-- A later world is as the frame wants it, compared with an earlier one. -/
  Rel : World → World → Prop
  /-- A world may stay as it is. -/
  refl : ∀ world, Rel world world
  /-- Changes may follow each other. -/
  trans : ∀ {first second third}, Rel first second → Rel second third → Rel first third
  /-- An event may be traced. -/
  noting : ∀ settings event world, Rel world (world.noting settings event)
  /-- A line may be written. -/
  writing : ∀ line world, Rel world (world.writing line)
  /-- A line may be read. -/
  reading : ∀ world, Rel world world.reading

namespace Frame

variable {α β : Type} {frame : Frame} {settings : Settings}

/-- A step changes the world only as the frame wants it. -/
def Keeps (frame : Frame) (step : Exec α) : Prop :=
  ∀ world, frame.Rel world (step world).2

namespace Keeps

/-- A value alone changes nothing. -/
theorem pure (a : α) : frame.Keeps (Pure.pure a) :=
  fun world => frame.refl world

/-- A failure alone changes nothing. -/
theorem throw (failure : Failure) : frame.Keeps (MonadExcept.throw failure : Exec α) :=
  fun world => frame.refl world

/-- Looking at the world changes nothing. -/
theorem get : frame.Keeps (MonadState.get : Exec World) :=
  fun world => frame.refl world

/-- Two steps in turn keep to the frame when each does. -/
theorem bind {first : Exec α} {next : α → Exec β} (start : frame.Keeps first)
    (rest : ∀ a, frame.Keeps (next a)) : frame.Keeps (first >>= next) := by
  intro world
  have before := start world
  rw [Exec.bind_run]
  -- What the second step changes comes on top of what the first has changed.
  rcases done : first world with ⟨failure | a, after⟩
  · -- A failure of the first step ends both.
    rw [done] at before
    exact before
  · rw [done] at before
    exact frame.trans before (rest a after)

/-- Taking over a result changes nothing. -/
theorem ofResult (result : Except Failure α) : frame.Keeps (ofResult result) := by
  intro world
  rw [ofResult_run]
  exact frame.refl world

/-- Raising a fault changes nothing. -/
theorem raise (fault : Fault) : frame.Keeps (raise fault : Exec α) :=
  fun world => frame.refl world

/-- Tracing keeps to every frame. -/
theorem note (event : Event) : frame.Keeps (note settings event) := by
  intro world
  rw [note_run]
  exact frame.noting settings event world

/-- Evaluation keeps to every frame. -/
theorem evaluate (expr : Expr) : frame.Keeps (evaluate expr) :=
  get.bind fun _ => .ofResult _

/-- Finding a condition keeps to every frame. -/
theorem condition (conditional : Conditional) (test : Expr) :
    frame.Keeps (condition settings conditional test) := by
  -- The world is changed only where the value of the condition is traced.
  -- Looking, taking over a result and raising a fault leave the world alone.
  refine get.bind fun world => (ofResult _).bind fun datum => (note _).bind fun _ => ?_
  refine (ofResult _).bind fun value => ?_
  split
  · exact .pure _
  · exact .raise _

/-- Finding the subject of a switch keeps to every frame. -/
theorem switchSubject (subject : Expr) : frame.Keeps (switchSubject settings subject) :=
  get.bind fun _ => (ofResult _).bind fun _ => (note _).bind fun _ => .pure _

/-- Comparing a case with the subject keeps to every frame. -/
theorem matchCase (subject : Datum) (value : Expr) : frame.Keeps (matchCase subject value) := by
  refine (evaluate value).bind fun datum => (ofResult _).bind fun candidate => ?_
  refine (ofResult _).bind fun subject => ?_
  dsimp only
  -- Values of different kinds raise a fault, and that changes nothing either.
  split
  · exact (raise _).bind fun _ => .pure _
  · exact .pure _

/-- Showing a display list keeps to every frame. -/
theorem showValue (expr : Expr) : frame.Keeps (showValue expr) := by
  refine get.bind fun world => (ofResult _).bind fun datum => (ofResult _).bind fun value => ?_
  -- Everything before the line is written has only looked at the world.
  exact fun world => frame.writing _ world

end Keeps

/-- The variables may change too. -/
def AllowsStores (frame : Frame) : Prop :=
  ∀ store world, frame.Rel world (world.storing store)

namespace Keeps

/-- Declaring a name keeps to a frame that lets the variables change and faults be reported. -/
theorem declareName (stores : frame.AllowsStores)
    (recovers : ∀ fault, frame.Keeps (recover settings fault)) (typing : Typing)
    (initial : Option Datum) (name : Target) :
    frame.Keeps (declareName settings typing initial name) := by
  intro world
  cases name with
  | stray defect => exact frame.refl world
  | named label =>
    rw [declareName_run]
    cases Store.startingValue label typing initial (world.store.view label) with
    | error failure =>
      -- Only a fault is got over, and nothing else has changed the world before it.
      cases failure with
      | fault fault => exact recovers fault world
      | defect defect => exact frame.refl world
      | unfinished => exact frame.refl world
    -- A declaration changes the variables and is then traced.
    | ok value => exact frame.trans (stores _ world) (frame.noting settings _ _)

/-- Giving a variable a value keeps to a frame that lets the variables change. -/
theorem assignLabel (stores : frame.AllowsStores) (how : Update) (datum : Datum) (label : Label) :
    frame.Keeps (assignLabel settings how datum label) := by
  intro world
  rw [assignLabel_run]
  cases world.store.assign label datum with
  -- An assignment that is refused changes nothing.
  | error failure => exact frame.refl world
  | ok store =>
    -- What follows the change is only its trace.
    cases datum.toValue with
    | error failure => exact stores store world
    | ok value => exact frame.trans (stores store world) (frame.noting settings _ _)

/-- Assigning a name keeps to a frame that lets the variables change. -/
theorem assignName (stores : frame.AllowsStores) (datum : Datum) (name : Target) :
    frame.Keeps (assignName settings datum name) :=
  -- Only the target could be something other than a name.
  (ofResult _).bind fun label => assignLabel stores .assign datum label

/-- Scanning a name keeps to a frame that lets the variables change. -/
theorem scanName (stores : frame.AllowsStores) (name : Target) :
    frame.Keeps (scanName settings name) := by
  -- The type is looked up before the line is read, and the value is stored after it.
  refine (ofResult _).bind fun label => get.bind fun world => (ofResult _).bind fun typing => ?_
  refine Keeps.bind (fun world => frame.reading world) fun line => ?_
  exact (ofResult _).bind fun value => assignLabel stores .scan (.value value) label

end Keeps

end Frame

end Pseudocode
