import Pseudocode.Proofs.Exec.Lockstep

/-! Only the lines that a run asks for matter to it, and it is given them in order. -/

namespace Pseudocode

/-- The line at a place of the input. Past the end every line is empty. -/
def lineAt (input : List String) (place : Nat) : String :=
  input.getD place ""

/-- The world with other lines to read. -/
def World.withInput (input : List String) (world : World) : World :=
  { world with console := { world.console with input := input } }

/-- Reading takes the first line of what is left, and counts it even past the end. -/
theorem Console.readLine_eq (console : Console) :
    console.readLine = (lineAt console.input 0,
      { console with input := console.input.drop 1, linesRead := console.linesRead + 1 }) := by
  obtain ⟨input, linesRead, output, reports⟩ := console
  -- Without any lines the one that is read is empty, too.
  cases input <;> rfl

/-- The lines of what is left after some have been read. -/
theorem lineAt_drop (input : List String) (count place : Nat) :
    lineAt (input.drop count) place = lineAt input (count + place) := by
  -- Dropping some lines moves the others to the front.
  simp [lineAt, List.getD_eq_getElem?_getD, List.getElem?_drop]

/-- Empty lines at the end do not show. -/
theorem lineAt_append_empty (input : List String) (count place : Nat) :
    lineAt (input ++ List.replicate count "") place = lineAt input place := by
  simp only [lineAt, List.getD_eq_getElem?_getD]
  by_cases inside : place < input.length
  · -- Inside, the line is the same with or without those at the end.
    rw [List.getElem?_append_left inside]
  · -- Past the end there is an empty line or none at all, which comes to the same.
    have past : input[place]? = none := List.getElem?_eq_none (by omega)
    rw [List.getElem?_append_right (by omega), past, List.getElem?_replicate]
    split <;> rfl

/-- Tracing does not look at the input. -/
theorem World.withInput_noting (settings : Settings) (event : Event) (input : List String)
    (world : World) :
    (world.withInput input).noting settings event =
      (world.noting settings event).withInput input := by
  simp only [noting]
  -- The event is traced or not, and the input has no part in that.
  split <;> rfl

/-- A report does not look at the input. -/
theorem World.withInput_reporting (settings : Settings) (fault : Fault) (input : List String)
    (world : World) :
    (world.withInput input).reporting settings fault =
      (world.reporting settings fault).withInput input := by
  simp only [reporting, noting]
  -- A report is traced, too, which does not look at the input either.
  split <;> rfl

/-- Two worlds differ in their inputs only, and there only past the lines up to some count. -/
def World.SameLines (last : Nat) (world world' : World) : Prop :=
  ∃ other, world' = world.withInput other ∧
    ∀ place, world.console.linesRead + place < last →
      lineAt other place = lineAt world.console.input place

/-- The next line is the same in both worlds, unless it is past the count. -/
theorem World.SameLines.reading {last : Nat} {world world' : World}
    (alike : world.SameLines last world') : last < world.reading.console.linesRead ∨
      (world'.console.readLine.1 = world.console.readLine.1 ∧
        world.reading.SameLines last world'.reading) := by
  -- The other world is the first one with other lines to read.
  obtain ⟨other, rfl, same⟩ := alike
  simp only [SameLines, World.reading, withInput, Console.readLine_eq]
  by_cases within : world.console.linesRead < last
  · -- The line is among those that are the same, and one less of them is left.
    refine .inr ⟨same 0 (by omega), other.drop 1, rfl, fun place left => ?_⟩
    rw [lineAt_drop, lineAt_drop]
    exact same (1 + place) (by omega)
  · -- The line that is read is already past the count.
    exact .inl (by omega)

/-- Two runs with the same lines to read up to some count: they are compared as long as no more
lines are asked for. -/
def sameLines (settings : Settings) (last : Nat) :
    Coupling settings settings fun _ => True where
  Rel world world' := world.SameLines last world'
  Over world := last < world.console.linesRead
  lasting extended spent := Nat.lt_of_lt_of_le spent extended.linesRead
  alike := .refl settings
  -- The variables are the same, since only the inputs differ.
  agrees := by
    rintro world _ ⟨other, rfl, same⟩ label -
    rfl
  -- What a step does to the one world it does to the other, and the inputs stay apart.
  noting := by
    rintro world _ event ⟨other, rfl, same⟩
    refine ⟨other, world.withInput_noting .., ?_⟩
    simpa only [World.noting_console] using same
  reporting := by
    rintro world _ fault ⟨other, rfl, same⟩
    refine ⟨other, world.withInput_reporting .., ?_⟩
    simpa only [World.reporting_console] using same
  writing := by
    rintro world _ line ⟨other, rfl, same⟩
    exact ⟨other, rfl, same⟩
  reading alike := alike.reading
  adding := by
    rintro world _ label typing value ⟨other, rfl, same⟩ - -
    exact ⟨other, rfl, same⟩
  setting := by
    rintro world _ label value ⟨other, rfl, same⟩ -
    exact ⟨other, rfl, same⟩

/-- A later world has taken lines from the input of an earlier one, in order, and has counted
them. -/
def takingLines : Frame where
  Rel before after := ∃ count,
    after.console.linesRead = before.console.linesRead + count ∧
      after.console.input = before.console.input.drop count
  refl _ := ⟨0, rfl, rfl⟩
  trans := by
    -- The counts add up, and so do the lines that have been taken.
    rintro first second third ⟨few, counted, left⟩ ⟨more, counted', left'⟩
    refine ⟨few + more, by omega, ?_⟩
    rw [left', left, List.drop_drop]
  noting _ _ _ := ⟨0, by simp, by simp⟩
  writing _ _ := ⟨0, rfl, rfl⟩
  -- One line is read, and it was the first.
  reading world := ⟨1, by simp [World.reading, Console.readLine_eq]⟩

section Runs

variable {settings : Settings}

/-- The variables have nothing to do with the input. -/
theorem takingLines_stores : takingLines.AllowsStores :=
  fun _ _ => ⟨0, rfl, rfl⟩

/-- Reports have nothing to do with the input. -/
theorem recover_takingLines (fault : Fault) : takingLines.Keeps (recover settings fault) := by
  intro world
  rw [recover_run]
  -- A report takes no line.
  split
  · exact takingLines.refl world
  · exact ⟨0, by simp, by simp⟩

variable {program : Program} {world : World}

/-- In every world of a run the next line is the one at the place of the count. -/
theorem Program.nextLine_of_mem_history {moment : World}
    (member : moment ∈ program.history settings world) :
    ∃ place, moment.console.linesRead = world.console.linesRead + place ∧
      nextLine moment = (.ok (lineAt world.console.input place), moment.reading) := by
  -- Every world of the run comes from the first one by taking lines.
  have linked : (program.walk settings).Linked takingLines.Rel :=
    (takingLines_stores.runs recover_takingLines).program program (blockUses_any program.body)
  obtain ⟨place, counted, left⟩ := linked.rel_of_mem member
  refine ⟨place, counted, ?_⟩
  -- The next line is the first of those that are left.
  rw [nextLine_run, Console.readLine_eq, left, lineAt_drop, Nat.add_zero]

/-- A run on other lines is the same when those that the first one asks for are. -/
theorem Program.run_withInput (settings : Settings) {other : List String}
    (same : ∀ place, world.console.linesRead + place <
        (program.run settings world).2.console.linesRead →
      lineAt other place = lineAt world.console.input place) :
    ∃ rest, program.run settings (world.withInput other) =
      ((program.run settings world).1, (program.run settings world).2.withInput rest) := by
  let coupling := sameLines settings (program.run settings world).2.console.linesRead
  have related : coupling.Rel world (world.withInput other) := ⟨other, rfl, same⟩
  -- The first run does not ask for more lines than it does.
  -- So the comparison lasts to the end of the run.
  rcases coupling.run_meets (program.uses_labelled _) related with
    past | ⟨outcome, rest, left, -⟩
  · exact absurd past (Nat.lt_irrefl _)
  · exact ⟨rest, Prod.ext outcome left⟩

end Runs

/-- Only the lines that a run asks for matter to it. If it ends, then on any other input with the
same lines up to their number it ends in the same way, and in the same world but for the lines that
are left; both inputs go on with empty lines past their ends. So empty lines at the end of the input
never change a run, whether it ends or not. In every world that a run passes through, the line
that is read next is the one at the place that the lines asked for so far have come to. -/
theorem Program.input_consumed (settings : Settings) (program : Program) (world : World) :
    (∀ outcome after other, program.EndsWith settings world outcome after →
      (∀ place, world.console.linesRead + place < after.console.linesRead →
        lineAt other place = lineAt world.console.input place) →
      ∃ rest, program.EndsWith settings (world.withInput other) outcome (after.withInput rest)) ∧
    (∀ count, ∃ rest,
      program.run settings
          (world.withInput (world.console.input ++ List.replicate count "")) =
        ((program.run settings world).1, (program.run settings world).2.withInput rest)) ∧
    ∀ moment ∈ program.history settings world, ∃ place,
      moment.console.linesRead = world.console.linesRead + place ∧
      nextLine moment = (.ok (lineAt world.console.input place), moment.reading) := by
  refine ⟨fun outcome after other ended same => ?_, fun count => ?_, fun moment member => ?_⟩
  -- The run ends with so many turns, and with more it ends alike.
  · obtain ⟨finished, enough, done⟩ := ended
    have first := done enough (Nat.le_refl _)
    -- With enough turns the run is the one that ends, and it asks for the lines that are the same.
    have asked : ∀ place, world.console.linesRead + place <
          (program.run (settings.withTurns enough) world).2.console.linesRead →
        lineAt other place = lineAt world.console.input place := by
      rw [first]
      exact same
    obtain ⟨rest, second⟩ := run_withInput (settings.withTurns enough) asked
    rw [first] at second
    exact ⟨rest, endsWith_of_run second finished⟩
  · -- An empty line at the end is what would be read there anyway.
    exact run_withInput settings fun place _ => lineAt_append_empty _ count place
  · exact nextLine_of_mem_history member

/-- A program that reads one line and shows it: a second line in the input does not matter. -/
theorem Program.input_consumed_scan :
    ∃ (program : Program) (after : World),
      program.EndsWith {} (World.start ["a", "b"]) (.ok ()) after ∧
      after.console.linesRead = 1 ∧ after.console.output = #["a"] ∧
      ∃ rest, program.EndsWith {} (World.start ["a", "z", "z"]) (.ok ())
        (after.withInput rest) := by
  -- It declares a text, reads it and shows it.
  let program : Program :=
    ⟨[.declare (.known .string) [⟨.ofName "s", none⟩], .scan [.ofName "s"],
      .display (.ident (.name "s"))]⟩
  let after : World := (program.run {} (World.start ["a", "b"])).2
  -- There is no loop, so that no turns are needed.
  have done : program.run (Settings.withTurns {} 0) (World.start ["a", "b"]) = (.ok (), after) :=
    rfl
  have ended := endsWith_of_run done (by simp)
  have once : after.console.linesRead = 1 := rfl
  refine ⟨program, after, ended, once, rfl, ?_⟩
  change ∃ rest, program.EndsWith {} ((World.start ["a", "b"]).withInput ["a", "z", "z"]) (.ok ())
    (after.withInput rest)
  apply (input_consumed {} program (World.start ["a", "b"])).1 (.ok ()) after _ ended
  -- Only the places below the count have to be compared.
  intro place asked
  -- The only place that is asked for is the first.
  have first : place = 0 := by
    rw [once] at asked
    omega
  subst first
  rfl

end Pseudocode
