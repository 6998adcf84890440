import Pseudocode.Proofs.Exec.Lockstep

/-! Tracing does not interfere: runs that are traced in different detail differ in their traces
only, and the trace with less detail is what is left of the other one. -/

namespace Pseudocode

/-- The same settings with another level of detail for the trace. -/
def Settings.tracing (settings : Settings) (level : Nat) : Settings :=
  { settings with debug := level }

/-- No event needs more than the third level of detail. -/
theorem Event.level_le (event : Event) : event.level ≤ 3 := by
  -- The third level is that of conditions and subjects.
  cases event <;> simp [level]

/-- The world without the events that are traced only above a level of detail. -/
def World.upTo (level : Nat) (world : World) : World :=
  { world with trace := world.trace.filter fun event => event.level ≤ level }

section Detail

variable {settings : Settings} {low high : Nat}

/-- A trace that is still empty has nothing to leave out. -/
theorem World.upTo_of_fresh {world : World} (fresh : world.trace = #[]) :
    world.upTo low = world := by
  simp only [upTo, fresh, Array.filter_empty]
  rw [← fresh]

/-- From the third level on nothing is left out. -/
theorem World.upTo_of_three_le (full : 3 ≤ low) (world : World) : world.upTo low = world := by
  have all : world.trace.filter (fun event => event.level ≤ low) = world.trace := by
    rw [Array.filter_eq_self]
    -- Every event is kept.
    intro event _
    have most := event.level_le
    exact decide_eq_true (by omega)
  rw [upTo, all]

/-- An event is traced in less detail when it is, and else it is left out. -/
theorem World.upTo_noting (below : low ≤ high) (event : Event) (world : World) :
    (world.noting (settings.tracing high) event).upTo low =
      (world.upTo low).noting (settings.tracing low) event := by
  simp only [noting, Settings.tracing]
  by_cases shown : event.level ≤ low
  · -- What is traced in less detail is also traced in more.
    have traced : event.level ≤ high := by omega
    simp [upTo, shown, traced]
  · -- What needs more than both levels is left out of both.
    by_cases traced : event.level ≤ high
    · simp [upTo, shown, traced]
    · simp [upTo, shown, traced]

/-- A report is traced as any other event, and what else it changes is not in the trace. -/
theorem World.upTo_reporting (below : low ≤ high) (fault : Fault) (world : World) :
    (world.reporting (settings.tracing high) fault).upTo low =
      (world.upTo low).reporting (settings.tracing low) fault := by
  -- The fault is recorded before the event is traced, and it is shown after that.
  have traced : ({ world with faults := world.faults.push fault }.noting (settings.tracing high)
        (.report fault)).upTo low =
      { world.upTo low with faults := (world.upTo low).faults.push fault }.noting
        (settings.tracing low) (.report fault) :=
    upTo_noting below (.report fault) { world with faults := world.faults.push fault }
  simp only [reporting]
  rw [← traced]
  rfl

/-- A run and one that is traced in less detail: the worlds differ in what is left out of the
trace. -/
def lessDetail (settings : Settings) (below : low ≤ high) :
    Coupling (settings.tracing high) (settings.tracing low) fun _ => True where
  Rel world world' := world' = world.upTo low
  -- The comparison goes on to the end of the runs.
  Over _ := False
  lasting _ := id
  alike := ⟨rfl, rfl⟩
  agrees := by
    -- Only the traces differ, and expressions do not look at them.
    rintro world _ rfl label -
    rfl
  -- Tracing, reporting, writing and changing variables all do the same to what is left.
  noting event same := by rw [same, World.upTo_noting below]
  reporting fault same := by rw [same, World.upTo_reporting below]
  writing line same := by rw [same]; rfl
  reading := by
    rintro world _ rfl
    exact .inr ⟨rfl, rfl⟩
  adding typing value same _ _ := by rw [same]; rfl
  setting value same _ := by rw [same]; rfl

variable {program : Program} {world : World}

/-- A run in less detail ends as the other does, and its world lacks only what is left out of the
trace. -/
theorem Program.run_tracing (settings : Settings) (fresh : world.trace = #[])
    (below : low ≤ high) :
    program.run (settings.tracing low) world =
      ((program.run (settings.tracing high) world).1,
        (program.run (settings.tracing high) world).2.upTo low) := by
  -- At the start there is nothing to leave out.
  have related : (lessDetail settings below).Rel world world := (World.upTo_of_fresh fresh).symm
  rcases (lessDetail settings below).run_meets (program.uses_labelled _) related with
    past | ⟨outcome, left⟩
  · exact past.elim
  · exact Prod.ext outcome left

/-- A run goes on for ever whatever the detail of its trace. -/
theorem Program.diverges_tracing (fresh : world.trace = #[]) (below : low ≤ high) :
    program.Diverges (settings.tracing low) world ↔
      program.Diverges (settings.tracing high) world := by
  have same : ∀ turns, (program.run ((settings.withTurns turns).tracing low) world).1 =
      (program.run ((settings.withTurns turns).tracing high) world).1 := by
    -- With any number of turns the two runs have the same outcome.
    intro turns
    rw [run_tracing _ fresh below]
  constructor
  · intro diverges turns
    exact (same turns).symm.trans (diverges turns)
  · intro diverges turns
    exact (same turns).trans (diverges turns)

/-- A run in less detail ends when the other does, with what is left of its world. -/
theorem Program.endsWith_tracing (fresh : world.trace = #[]) (below : low ≤ high)
    (outcome : Except Failure Unit) (after : World) :
    program.EndsWith (settings.tracing low) world outcome after ↔
      ∃ full, program.EndsWith (settings.tracing high) world outcome full ∧
        after = full.upTo low := by
  -- The level of detail and the number of turns are set apart from each other.
  have same : ∀ turns, program.run ((settings.tracing low).withTurns turns) world =
      ((program.run ((settings.tracing high).withTurns turns) world).1,
        (program.run ((settings.tracing high).withTurns turns) world).2.upTo low) :=
    fun turns => run_tracing (settings.withTurns turns) fresh below
  constructor
  · rintro ⟨finished, enough, done⟩
    -- The turns that are enough for one run are enough for the other.
    have ended := done enough (Nat.le_refl _)
    rw [same enough, Prod.mk.injEq] at ended
    exact ⟨_, endsWith_of_run (Prod.ext ended.1 rfl) finished, ended.2.symm⟩
  · rintro ⟨full, ⟨finished, enough, done⟩, rfl⟩
    -- The number of turns that is enough for one run is enough for the other.
    refine ⟨finished, enough, fun turns more => ?_⟩
    rw [same turns, done turns more]

end Detail

end Pseudocode
