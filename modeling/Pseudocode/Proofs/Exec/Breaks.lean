import Pseudocode.Proofs.Exec.Containment
import Pseudocode.Proofs.Exec.Unbroken

/-! Breaks: only a break outside of all switches can leave a statement, and nothing else is ever
reported as a misplaced break. -/

namespace Pseudocode

mutual

/-- Whether a statement has a break in it that no switch of the statement has around it. -/
def Stmt.exposesBreak : Stmt → Bool
  | .breakOut => true
  | .ifElse _ body otherwise => blockExposesBreak body || otherwise.exposesBreak
  | .repeatWhile _ body => blockExposesBreak body
  -- A switch is around all breaks of its cases and of its default.
  | .switch .. => false
  | .declare .. | .assign .. | .display _ | .scan _ | .stray _ | .noBlock _ => false

/-- Whether what a condition leaves to be done has such a break in it. -/
def Otherwise.exposesBreak : Otherwise → Bool
  | .nothing => false
  | .block body => blockExposesBreak body
  | .elseIf _ body otherwise => blockExposesBreak body || otherwise.exposesBreak

/-- Whether some statements have such a break in them. -/
def blockExposesBreak : List Stmt → Bool
  | [] => false
  | stmt :: rest => stmt.exposesBreak || blockExposesBreak rest

end

/-- A step never ends on its way out of a switch. -/
def Exec.Stays (step : Exec Flow) : Prop :=
  ∀ world, (step world).1 ≠ .ok .exit

namespace Exec.Stays

variable {α : Type} {settings : Settings}

/-- A step that ends by itself. -/
theorem normal : (pure .normal : Exec Flow).Stays := by
  intro world left
  cases left

/-- A step that fails. -/
theorem throw (failure : Failure) : (MonadExcept.throw failure : Exec Flow).Stays := by
  intro world left
  cases left

/-- Whatever comes first, the last of two steps decides. -/
theorem bind {first : Exec α} {next : α → Exec Flow} (rest : ∀ a, (next a).Stays) :
    (first >>= next).Stays := by
  intro world
  rw [Exec.bind_run]
  rcases first world with ⟨failure | a, after⟩
  · exact throw failure after
  · exact rest a after

/-- A contained step, which ends by itself when its fault is got over. -/
theorem contain {step : Exec Flow} (inside : step.Stays) :
    (contain settings step .normal).Stays := by
  intro world
  have stays := inside world
  rw [contain_run]
  -- Getting over a fault ends by itself, and any other failure stays one.
  rcases done : step world with ⟨failure | flow, after⟩
  · cases failure with
    | fault fault =>
      dsimp only
      split
      · exact throw (.fault fault) after
      · exact normal (after.reporting settings fault)
    | defect defect => exact throw (.defect defect) after
    | unfinished => exact throw .unfinished after
  · rw [done] at stays
    exact stays

/-- Two steps, where the second is left out when the first is on its way out. -/
theorem sequence {first rest : Exec Flow} (start : first.Stays) (later : rest.Stays) :
    (sequence first rest).Stays := by
  intro world
  -- The first step is not on its way out, so that the second one is run.
  have stays := start world
  unfold Pseudocode.sequence
  rw [Exec.bind_run]
  rcases done : first world with ⟨failure | flow, after⟩
  · exact throw failure after
  · rw [done] at stays
    cases flow with
    | exit => exact absurd rfl stays
    | normal => exact later after

/-- A loop ends on its way out only when its body does. -/
theorem loop {test : Exec Bool} {body : Exec Flow} (bodies : body.Stays) (turns : Nat) :
    Stays (loop test body turns) := by
  -- Each turn is a test and a body, and then the loop with one turn less.
  induction turns with
  | zero => exact throw .unfinished
  | succ turns ih =>
    intro world
    simp only [Pseudocode.loop]
    rcases test world with ⟨failure | holds, tested⟩
    · exact throw failure tested
    -- A loop ends where its test fails, and goes on after a body that ends by itself.
    · cases holds with
      | false => exact normal tested
      | true =>
        have stays := bodies tested
        dsimp only
        rcases done : body tested with ⟨failure | flow, after⟩
        · exact throw failure after
        · rw [done] at stays
          cases flow with
          | exit => exact absurd rfl stays
          | normal => exact ih after

/-- Cases take every break of their bodies, so that what comes after them decides. -/
theorem execCases {after : Exec Flow} (last : after.Stays) (subject : Datum)
    (cases : List Case) : (execCases settings subject after cases).Stays := by
  induction cases with
  | nil =>
    rw [Pseudocode.execCases]
    exact last
  | cons case rest later =>
    obtain ⟨value, body⟩ := case
    rw [Pseudocode.execCases, tryCase_eq]
    refine bind fun same => ?_
    cases same with
    | false => exact later
    | true =>
      -- A body on its way out has come to its switch, which ends by itself.
      refine bind fun flow => ?_
      cases flow with
      | exit => exact normal
      | normal => exact later

end Exec.Stays

section Stays

variable (settings : Settings)

mutual

/-- A statement that exposes no break never ends on its way out of a switch. -/
theorem Stmt.exec_stays (stmt : Stmt) (inside : stmt.exposesBreak = false) :
    (stmt.exec settings).Stays := by
  -- What is traced at the start does not matter, and most statements end by themselves.
  rw [Stmt.exec.eq_def]
  refine .bind fun _ => ?_
  cases stmt with
  | declare typing declarators => exact .bind fun _ => .normal
  | assign targets value => exact .bind fun _ => .bind fun _ => .bind fun _ => .normal
  | ifElse test body otherwise =>
    simp only [Stmt.exposesBreak, Bool.or_eq_false_iff] at inside
    refine .bind fun holds => ?_
    cases holds with
    | true => exact execBlock_stays body inside.1
    | false => exact otherwise.exec_stays inside.2
  | repeatWhile test body => exact .loop (execBlock_stays body inside) _
  | switch subject cases default =>
    -- Whatever its bodies do, a switch takes the breaks of its cases and of its default.
    cases default with
    -- Without a default nothing comes after the cases.
    | none => exact .bind fun _ => .execCases .normal _ _
    | some body =>
      have taken : (do
          let subject ← switchSubject settings subject
          execCases settings subject (do discard (execBlock settings body); return .normal)
            cases).Stays :=
        .bind fun _ => .execCases (.bind fun _ => .normal) _ _
      dsimp only
      -- The default is traced or not, and is looked at after the cases.
      split
      · exact .bind fun _ => taken
      · exact taken
  | breakOut => cases inside
  | display value =>
    -- A display ends when its line has been written.
    exact .bind fun _ => .bind fun _ => .bind fun _ => .bind fun _ => .normal
  | scan names => exact .bind fun _ => .normal
  | stray defect => exact .throw (.defect defect)
  | noBlock node => exact .throw (.defect (.malformed node))

/-- What a condition leaves to be done never ends on its way out when it exposes no break. -/
theorem Otherwise.exec_stays (otherwise : Otherwise) (inside : otherwise.exposesBreak = false) :
    (otherwise.exec settings).Stays := by
  cases otherwise with
  | nothing => exact .normal
  | block body => exact execBlock_stays body inside
  | elseIf test body otherwise =>
    simp only [Otherwise.exposesBreak, Bool.or_eq_false_iff] at inside
    rw [Otherwise.exec]
    refine .bind fun _ => .bind fun holds => ?_
    cases holds with
    | true => exact execBlock_stays body inside.1
    | false => exact otherwise.exec_stays inside.2

/-- Statements that expose no break never end on their way out of a switch. -/
theorem execBlock_stays (body : List Stmt) (inside : blockExposesBreak body = false) :
    (execBlock settings body).Stays := by
  cases body with
  | nil => exact .normal
  | cons stmt rest =>
    simp only [blockExposesBreak, Bool.or_eq_false_iff] at inside
    rw [execBlock]
    -- Each statement is contained on its own.
    exact .sequence (stmt.exec_stays inside.1).contain (execBlock_stays rest inside.2)

end

end Stays

section Program

variable {settings : Settings}

/-- A program in which no statement exposes a break has nothing to do with misplaced breaks. -/
theorem Program.exec_unbroken (settings : Settings) {program : Program}
    (inside : ∀ stmt ∈ program.body, stmt.exposesBreak = false) :
    (program.exec settings).Unbroken := by
  obtain ⟨body⟩ := program
  -- One statement after another is run at the top level.
  induction body with
  | nil => exact .pure ()
  | cons stmt rest ih =>
    have stays : (stmt.run settings).Stays :=
      (stmt.exec_stays settings (inside stmt (by simp))).contain
    have first : (stmt.runTop settings).Unbroken := by
      refine (stmt.run_unbroken settings).bind fun flow gives => ?_
      cases flow with
      -- A break would have to come out of a statement that exposes none.
      | exit =>
        obtain ⟨world, left⟩ := gives
        exact absurd left (stays world)
      | normal => exact .pure ()
    exact first.bind fun _ _ => ih fun other member => inside other (by simp [member])

/-- The statements of a program are run in turn, each from the world that the one before it has
left, with the flows that they end with. After a break the next statement is run all the same, once
the break has been reported. A failure is the outcome of them all. -/
inductive RunsThrough (settings : Settings) :
    List Stmt → World → List Flow → Except Failure Unit × World → Prop where
  /-- There are no statements left. -/
  | done (world : World) : RunsThrough settings [] world [] (.ok (), world)
  /-- A statement ends by itself. -/
  | normal {stmt : Stmt} {rest : List Stmt} {world after : World} {flows : List Flow}
    {result : Except Failure Unit × World} (ended : stmt.run settings world = (.ok .normal, after))
    (onward : RunsThrough settings rest after flows result) :
    RunsThrough settings (stmt :: rest) world (.normal :: flows) result
  /-- A statement ends on its way out, which is reported. -/
  | exit {stmt : Stmt} {rest : List Stmt} {world after : World} {flows : List Flow}
    {result : Except Failure Unit × World} (ended : stmt.run settings world = (.ok .exit, after))
    (onward : RunsThrough settings rest (after.reporting settings .misplacedBreak) flows result) :
    RunsThrough settings (stmt :: rest) world (.exit :: flows) result
  /-- A statement fails, and no other is run. -/
  | stopped {stmt : Stmt} {rest : List Stmt} {world after : World} {failure : Failure}
    (failed : stmt.run settings world = (.error failure, after)) :
    RunsThrough settings (stmt :: rest) world [] (.error failure, after)

namespace RunsThrough

/-- A run that is not strict goes through its statements. -/
theorem exists_flows (loose : settings.strict = false) (body : List Stmt) (world : World) :
    ∃ flows, RunsThrough settings body world flows (Program.run settings ⟨body⟩ world) := by
  induction body generalizing world with
  | nil => exact ⟨[], .done world⟩
  | cons stmt rest ih =>
    have run : Program.run settings ⟨stmt :: rest⟩ world =
        (stmt.runTop settings >>= fun _ => Program.exec settings ⟨rest⟩) world := rfl
    -- What happens next depends on how the first statement ends.
    rw [run, Exec.bind_run, Stmt.runTop, Exec.bind_run]
    rcases ended : stmt.run settings world with ⟨failure | flow, after⟩
    · exact ⟨[], .stopped ended⟩
    · cases flow with
      | exit =>
        -- A misplaced break is no fatal fault, so that it is reported.
        obtain ⟨flows, onward⟩ := ih (after.reporting settings .misplacedBreak)
        refine ⟨.exit :: flows, .exit ended ?_⟩
        simp only [recover_run, loose, Bool.or_false]
        exact onward
      | normal =>
        obtain ⟨flows, onward⟩ := ih after
        exact ⟨.normal :: flows, .normal ended onward⟩

variable {body : List Stmt} {world : World} {flows : List Flow}
  {result : Except Failure Unit × World}

/-- Each statement that ends on its way out is one report of a misplaced break, and there are no
others. -/
theorem misplacedBreaks_eq (runs : RunsThrough settings body world flows result) :
    result.2.misplacedBreaks = world.misplacedBreaks + flows.count .exit := by
  -- No statement reports one by itself, however it ends.
  induction runs with
  | done world => rfl
  | normal ended onward ih =>
    -- A statement that ends by itself adds no report.
    rw [ih, Stmt.misplacedBreaks_run ended, List.count_cons_of_ne (by decide)]
  | exit ended onward ih =>
    rw [ih, World.reporting_misplacedBreak, Stmt.misplacedBreaks_run ended, List.count_cons_self]
    omega
  | stopped failed => exact Stmt.misplacedBreaks_run failed

/-- A run that returns has run all statements. -/
theorem length_eq (runs : RunsThrough settings body world flows result)
    (returned : result.1 = .ok ()) : flows.length = body.length := by
  induction runs with
  -- Each statement that is gone through has its flow in the list.
  | done world => rfl
  | normal ended onward ih => simp [ih returned]
  | exit ended onward ih => simp [ih returned]
  | stopped failed => cases returned

end RunsThrough

/-- What has been reported is counted on. -/
theorem Accounts.misplacedBreaks_eq {α : Type} {world : World} {raised reported : List Fault}
    {result : Except Failure α × World} (account : Accounts settings world raised reported result) :
    result.2.misplacedBreaks = world.misplacedBreaks + reported.count .misplacedBreak := by
  -- The reports are those of the account, behind those of before.
  rw [World.misplacedBreaks, account.faults, List.count_append, World.misplacedBreaks]

/-- A result accounts for no misplaced break when none is reported and none is the outcome. -/
theorem Accounts.misplacedBreak_notMem {α : Type} {world : World} {raised reported : List Fault}
    {result : Except Failure α × World} (account : Accounts settings world raised reported result)
    (silent : result.2.misplacedBreaks = world.misplacedBreaks) (breakless : Breakless result.1) :
    .misplacedBreak ∉ raised := by
  -- Nothing is reported, and all that is raised is reported or is the outcome.
  have counted := account.misplacedBreaks_eq
  rw [account.complete]
  intro member
  rcases List.mem_append.mp member with earlier | last
  · have positive := List.count_pos_iff.mpr earlier
    omega
  · -- The fault that is the outcome is another one.
    rcases result with ⟨failure | a, after⟩
    · cases failure with
      | fault fault =>
        obtain rfl := List.mem_singleton.mp last
        exact breakless rfl
      | defect defect => cases last
      | unfinished => cases last
    · cases last

/-- The faults of every run are accounted for. -/
theorem Program.run_accounts (settings : Settings) (program : Program) (world : World) :
    ∃ raised reported, (program.walk settings).Raises settings world raised ∧
      Accounts settings world raised reported (program.run settings world) := by
  -- What is raised along the way of the program is found by going through its statements.
  obtain ⟨raised, raises⟩ :=
    (traceableRuns settings).program program (blockUses_any program.body) world
  obtain ⟨reported, account⟩ := raises.accounts
  rw [walk_step] at account
  exact ⟨raised, reported, raises, account⟩

end Program

/-- The discipline of breaks. A statement that exposes no break never ends on its way out of a
switch, alone or with its fault got over; a switch never does, whatever its bodies have in them. So
a program in which no statement exposes a break never raises a misplaced break, strict or not: none
is reported, and none is its outcome. And in a run that is not strict each statement of the program
that ends on its way out is one report of a misplaced break, and the next one is run after it: there
are as many reports as such statements, and a run that returns has run all of its statements. -/
theorem Program.breaks_disciplined (settings : Settings) :
    (∀ stmt : Stmt, stmt.exposesBreak = false →
      (stmt.exec settings).Stays ∧ (stmt.run settings).Stays) ∧
    (∀ subject cases default, ((Stmt.switch subject cases default).exec settings).Stays) ∧
    (∀ program : Program, (∀ stmt ∈ program.body, stmt.exposesBreak = false) → ∀ world,
      ∃ raised reported, (program.walk settings).Raises settings world raised ∧
        Accounts settings world raised reported (program.run settings world) ∧
        .misplacedBreak ∉ raised) ∧
    (settings.strict = false → ∀ (program : Program) world, ∃ flows raised reported,
      RunsThrough settings program.body world flows (program.run settings world) ∧
      Accounts settings world raised reported (program.run settings world) ∧
      reported.count .misplacedBreak = flows.count .exit ∧
      ((program.run settings world).1 = .ok () → flows.length = program.body.length)) := by
  refine ⟨fun stmt inside => ?_, fun subject cases default => ?_, fun program inside world => ?_,
    fun loose program world => ?_⟩
  · -- A statement keeps this when its fault is got over.
    have stays := stmt.exec_stays settings inside
    exact ⟨stays, stays.contain⟩
  · -- A switch exposes no break by its very form.
    exact Stmt.exec_stays settings _ rfl
  · -- Without an exposed break, none is reported and none is the outcome.
    obtain ⟨raised, reported, raises, account⟩ := program.run_accounts settings world
    obtain ⟨silent, breakless⟩ := exec_unbroken settings inside world
    exact ⟨raised, reported, raises, account, account.misplacedBreak_notMem silent breakless⟩
  · obtain ⟨raised, reported, -, account⟩ := program.run_accounts settings world
    obtain ⟨flows, runs⟩ := RunsThrough.exists_flows loose program.body world
    -- Both counts are what the run has added to the reports before it.
    have counted := runs.misplacedBreaks_eq
    have reports := account.misplacedBreaks_eq
    refine ⟨flows, raised, reported, runs, account, ?_, runs.length_eq⟩
    change (program.run settings world).2.misplacedBreaks = _ at counted
    omega

/-- A break in a loop in a switch ends the switch, and a strict program of that switch alone raises
no misplaced break. Followed by a break outside of all switches, one is reported, and the statement
after that is run all the same. -/
theorem Program.breaks_disciplined_loop :
    ∃ (inner : Stmt) (program : Program) (flows : List Flow) (after : World),
      inner.exposesBreak = false ∧ (inner.exec { turns := 1 }).Stays ∧
      (∃ raised reported, Accounts { strict := true, turns := 1 } (World.start []) raised reported
        (Program.run { strict := true, turns := 1 } ⟨[inner]⟩ (World.start [])) ∧
        .misplacedBreak ∉ raised) ∧
      inner ∈ program.body ∧
      RunsThrough { turns := 1 } program.body (World.start []) flows (.ok (), after) ∧
      flows.length = 3 ∧ flows.count .exit = 1 ∧
      after.console.reports = #["Error: MisplacedBreak: BREAK outside of SWITCH"] ∧
      after.console.output = #["TRUE"] := by
  let yes : Expr := .literal (.value (.boolean true))
  -- A loop in a switch is left with the switch, since a break belongs to the nearest one.
  let inner : Stmt := .switch yes [.mk yes [.repeatWhile yes [.breakOut]]] none
  let program : Program := ⟨[inner, .ifElse yes [.breakOut] .nothing, .display yes]⟩
  have only : ∀ stmt ∈ [inner], stmt.exposesBreak = false := by
    intro stmt member
    rw [List.mem_singleton.mp member]
    rfl
  obtain ⟨raised, reported, -, account, clean⟩ :=
    (breaks_disciplined { strict := true, turns := 1 }).2.2.1 ⟨[inner]⟩ only (World.start [])
  obtain ⟨stays, -, -, discipline⟩ := breaks_disciplined { turns := 1 }
  obtain ⟨flows, _, reported', runs, account', same, all⟩ :=
    discipline rfl program (World.start [])
  -- The faults of the world that is left are those that have been reported.
  have faults : [Fault.misplacedBreak] = reported' := account'.faults
  have once : flows.count .exit = 1 := by
    rw [← same, ← faults]
    rfl
  exact ⟨inner, program, flows, _, rfl, (stays inner rfl).1, ⟨raised, reported, account, clean⟩,
    by simp [program], runs, all rfl, once, by decide, by decide⟩

end Pseudocode
