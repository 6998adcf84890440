import Pseudocode.Proofs.Exec.Linked
import Pseudocode.Proofs.Exec.Turns

/-! Strict runs and runs that are not: they are the same up to the first fault that is reported, and
there the strict run stops. -/

namespace Pseudocode

namespace Settings

/-- The same settings, where only fatal faults stop the run. -/
def loosely (settings : Settings) : Settings :=
  { settings with strict := false }

/-- The same settings, where every fault stops the run. -/
def strictly (settings : Settings) : Settings :=
  { settings with strict := true }

end Settings

/-- The frame of all that reports nothing. -/
def unreported : Frame where
  -- Both the record of the faults and what is shown of them are kept.
  Rel before after :=
    after.faults = before.faults ∧ after.console.reports = before.console.reports
  refl _ := ⟨rfl, rfl⟩
  trans first second := ⟨second.1.trans first.1, second.2.trans first.2⟩
  noting _ _ _ := by simp
  writing _ _ := ⟨rfl, rfl⟩
  reading world := by
    -- Past the end of the input nothing but the count changes.
    unfold World.reading Console.readLine
    split <;> exact ⟨rfl, rfl⟩

/-- A later world has all that an earlier one has reported and written, and has asked for no fewer
lines. -/
structure World.Extends (after before : World) : Prop where
  /-- The faults reported before were the first. -/
  faults : before.faults.toList <+: after.faults.toList
  /-- The lines written before were the first. -/
  output : before.console.output.toList <+: after.console.output.toList
  /-- The lines asked for are counted on. -/
  linesRead : before.console.linesRead ≤ after.console.linesRead

/-- The frame of all that takes nothing back. -/
def extending : Frame where
  Rel before after := after.Extends before
  refl _ := ⟨List.prefix_rfl, List.prefix_rfl, Nat.le_refl _⟩
  trans first second :=
    ⟨first.faults.trans second.faults, first.output.trans second.output,
      Nat.le_trans first.linesRead second.linesRead⟩
  noting _ _ _ := ⟨by simp, by simp, by simp⟩
  writing _ _ := ⟨List.prefix_rfl, by simp [World.writing], Nat.le_refl _⟩
  reading world := by
    unfold World.reading Console.readLine
    split <;> exact ⟨List.prefix_rfl, List.prefix_rfl, Nat.le_succ _⟩

/-- What two runs do from a world on, one that is strict and one that is not. -/
inductive Compared {α : Type} (settings : Settings) (loose strict : Walk α) (world : World) :
    Prop where
  /-- Nothing is reported, and both do the same. -/
  | same (silent : ∀ later ∈ loose.path world, unreported.Rel world later)
    (agrees : strict.step world = loose.step world) : Compared settings loose strict world
  /-- A fault is reported, and the strict run stops with it right before. -/
  | stops (fault : Fault) (moment : World) (before after : List World)
    (split : world :: loose.path world =
      before ++ moment :: moment.reporting settings fault :: after)
    (silent : ∀ earlier ∈ before ++ [moment], unreported.Rel world earlier)
    (agrees : strict.step world = (.error (.fault fault), moment)) :
    Compared settings loose strict world

/-- The comparison looks only at what the steps do from the world on. -/
theorem Compared.congr {α : Type} {settings : Settings} {step step' other other' : Exec α}
    {world : World} (loose : step' world = step world) (strict : other' world = other world)
    (compared : Compared settings (.atom step) (.atom other) world) :
    Compared settings (.atom step') (.atom other') world := by
  -- The way of a step that is taken at once is the one world that it leaves.
  have path : (Walk.atom step').path world = (Walk.atom step).path world := by
    simp only [Walk.atom, loose]
  cases compared with
  | same silent agrees =>
    exact .same (by rwa [path]) (strict.trans (agrees.trans loose.symm))
  | stops fault moment before after split silent agrees =>
    exact .stops fault moment before after (by rwa [path]) silent (strict.trans agrees)

/-- Two walks are comparable from every world on. -/
def Walk.Comparable {α : Type} (settings : Settings) (loose strict : Walk α) : Prop :=
  ∀ world, Compared settings loose strict world

/-- The way of a walk with its first world ends where the walk does. -/
theorem Walk.cons_path_eq {α : Type} (walk : Walk α) (world : World) :
    ∃ before, world :: walk.path world = before ++ [(walk.step world).2] :=
  List.getLast?_eq_some_iff.mp (walk.ends world)

namespace Walk.Comparable

variable {α β : Type} {settings : Settings}

/-- A step that reports nothing does the same in both runs. -/
theorem atom {step : Exec α} (keeps : unreported.Keeps step) :
    -- The only world on the way is the one that the step leaves.
    Comparable settings (atom step) (atom step) :=
  fun world => .same (by simpa [Walk.atom] using keeps world) rfl

/-- A value alone is the same in both runs. -/
theorem pure {a : α} : Comparable settings (Pure.pure a) (Pure.pure a) :=
  -- There is no world on the way.
  fun world => .same (by simp [Pure.pure, Walk.pure]) rfl

/-- A way on which nothing is reported has reported nothing at its end. -/
theorem silent_end {walk : Walk α} {world : World}
    (silent : ∀ later ∈ walk.path world, unreported.Rel world later) :
    ∀ later ∈ world :: walk.path world, unreported.Rel world later := by
  intro later member
  -- The first world has reported nothing but what is there.
  rcases List.mem_cons.mp member with same | member
  · exact same ▸ unreported.refl world
  · exact silent later member

/-- Two walks in turn are comparable when each is. -/
theorem bind {first first' : Walk α} {next next' : α → Walk β}
    (start : Comparable settings first first')
    (rest : ∀ a, first.Gives a → Comparable settings (next a) (next' a)) :
    Comparable settings (first >>= next) (first' >>= next') := by
  intro world
  have path : (first >>= next).path world = first.path world ++ onward next (first.step world) :=
    rfl
  cases start world with
  | stops fault moment before after split silent agrees =>
    -- The strict run has stopped, and what follows in the other run does not matter.
    refine .stops fault moment before (after ++ onward next (first.step world)) ?_ silent ?_
    · rw [path, ← List.cons_append, split]
      simp
    · rw [bind_step, Exec.bind_run, agrees]
  | same silent agrees =>
    -- Nothing has been reported, and both runs have come to the same point.
    obtain ⟨front, ended⟩ := first.cons_path_eq world
    have all := silent_end silent
    -- A failure that is not got over ends both runs.
    rcases done : first.step world with ⟨failure | a, after⟩
    · refine .same ?_ ?_
      · simpa [path, done, onward] using silent
      · rw [bind_step, bind_step, Exec.bind_run, Exec.bind_run, agrees, done]
    · rw [ended, done] at all
      have here : unreported.Rel world after := all after (by simp)
      have goes : (first' >>= next').step world = (next' a).step after := by
        rw [bind_step, Exec.bind_run, agrees, done]
      -- The second walks start in the same world, and what they do decides.
      cases rest a ⟨world, by rw [done]⟩ after with
      | same silent' agrees' =>
        refine .same (fun later member => ?_) ?_
        · rw [path, done] at member
          rcases List.mem_append.mp member with member | member
          · exact silent later member
          · exact unreported.trans here (silent' later member)
        · rw [goes, agrees', bind_step, Exec.bind_run, done]
      | stops fault moment before later split silent' agrees' =>
        -- The first way is silent, so that the first report of the second is the first of all.
        refine .stops fault moment (front ++ before) later ?_ (fun earlier member => ?_) ?_
        · rw [path, ← List.cons_append, ended, done, onward, List.append_assoc,
            List.singleton_append, split, List.append_assoc]
        · rw [List.append_assoc] at member
          rcases List.mem_append.mp member with member | member
          · exact all earlier (by simp [member])
          · exact unreported.trans here (silent' earlier member)
        · rw [goes, agrees']

/-- Getting over a fault reports it, unless it is fatal or the run is strict. -/
theorem recover (fault : Fault) :
    Comparable settings (Walk.atom (recover settings.loosely fault))
      (Walk.atom (recover settings.strictly fault)) := by
  intro world
  -- A fatal fault is raised again in both runs, and the others only in the strict one.
  by_cases fatal : fault.isFatal = true
  · refine .same ?_ ?_
    · -- A fatal fault is raised in both runs.
      simp [Walk.atom, recover_run, fatal, unreported.refl]
    · simp [recover_run, fatal]
  · -- Any other fault is reported in one of them.
    refine .stops fault world [] [] ?_ (by simpa using unreported.refl world) ?_
    · simp only [Walk.atom, recover_run, fatal, Settings.loosely]
      rfl
    · simp [recover_run, Settings.strictly]

/-- Contained walks are comparable when the walks are. -/
theorem contain {loose strict : Walk α} {instead : α}
    (compared : Comparable settings loose strict) :
    Comparable settings (loose.contain settings.loosely instead)
      (strict.contain settings.strictly instead) := by
  intro world
  have path : (loose.contain settings.loosely instead).path world =
      loose.path world ++ aftermath settings.loosely (loose.step world) := rfl
  cases compared world with
  | stops fault moment before after split silent agrees =>
    -- The strict run passes the fault on from one containment to the next.
    refine .stops fault moment before
      (after ++ aftermath settings.loosely (loose.step world)) ?_ silent ?_
    · rw [path, ← List.cons_append, split]
      simp
    · simp [contain_run, agrees, Settings.strictly]
  | same silent agrees =>
    obtain ⟨front, ended⟩ := loose.cons_path_eq world
    have all := silent_end silent
    -- Without a fault there is nothing to contain.
    have passes : ∀ result, loose.step world = result → aftermath settings.loosely result = [] →
        (strict.contain settings.strictly instead).step world =
          (loose.contain settings.loosely instead).step world →
        Compared settings (loose.contain settings.loosely instead)
          (strict.contain settings.strictly instead) world := by
      intro result done nothing same
      refine .same ?_ same
      rw [path, done, nothing, List.append_nil]
      exact silent
    -- What is contained ends in one of four ways.
    rcases done : loose.step world with ⟨failure | a, after⟩
    · cases failure with
      | fault fault =>
        rw [ended, done] at all
        -- A fatal fault is not reported, and so both runs are still the same.
        by_cases fatal : fault.isFatal = true
        · refine .same ?_ (by simp [contain_run, agrees, done, fatal])
          intro later member
          rw [path, done, aftermath, recover_run, if_pos (by simp [fatal])] at member
          rcases List.mem_append.mp member with member | member
          · exact silent later member
          · exact all later (by rw [List.mem_singleton.mp member]; simp)
        · -- Here the fault is reported for the first time.
          refine .stops fault after front [] ?_ all ?_
          · rw [path, ← List.cons_append, ended, done, aftermath, recover_run,
              if_neg (by simp [fatal, Settings.loosely])]
            simp only [List.append_assoc, List.singleton_append]
            rfl
          · simp [contain_run, agrees, done, Settings.strictly]
      | defect defect => exact passes _ done rfl (by simp [contain_run, agrees, done])
      | unfinished => exact passes _ done rfl (by simp [contain_run, agrees, done])
    · exact passes _ done rfl (by simp [contain_run, agrees, done])

/-- Declaring a name reports a fault, unless the run is strict. -/
theorem declareName (typing : Typing) (initial : Option Datum) (name : Target) :
    Comparable settings (Walk.atom (declareName settings.loosely typing initial name))
      (Walk.atom (declareName settings.strictly typing initial name)) := by
  cases name with
  | stray defect => exact atom (.throw _)
  | named label =>
    intro world
    have loose := declareName_run settings.loosely typing initial label world
    have strict := declareName_run settings.strictly typing initial label world
    -- What the store answers does not depend on the settings.
    cases done : Store.startingValue label typing initial (world.store.view label) with
    | error failure =>
      simp only [done] at loose strict
      cases failure with
      -- The two runs part where the fault is got over.
      | fault fault => exact (recover fault world).congr loose strict
      | defect defect => exact (atom (.throw (.defect defect)) world).congr loose strict
      | unfinished => exact (atom (.throw .unfinished) world).congr loose strict
    | ok value =>
      simp only [done] at loose strict
      -- What is traced is the same in both runs.
      refine .same ?_ (strict.trans loose.symm)
      simp only [Walk.atom, List.mem_singleton, forall_eq, loose]
      exact unreported.trans ⟨rfl, rfl⟩ (unreported.noting ..)

end Walk.Comparable

/-- Assignments report nothing. -/
theorem unreported_stores : unreported.AllowsStores :=
  -- Faults are no variables.
  fun _ _ => ⟨rfl, rfl⟩

/-- A strict run and one that is not are comparable. -/
def comparedRuns (settings : Settings) :
    Congruence settings.loosely settings.strictly .any where
  Rel loose strict := Walk.Comparable settings loose strict
  pure := .pure
  bind := .bind
  contain := .contain
  loop tests bodies := Walk.loop_congr (fun _ => Walk.Comparable settings) .pure .bind
    (.atom (.throw _)) tests bodies settings.turns
  -- Only getting over a fault depends on the strictness.
  start _ := .atom (.note _)
  evaluate _ := .atom (.evaluate _)
  declareName _ _ _ := .declareName _ _ _
  assignName _ _ := .atom (.assignName unreported_stores _ _)
  scanName _ := .atom (.scanName unreported_stores _)
  condition _ := .atom (.condition _ _)
  subject _ := .atom (.switchSubject _)
  matchCase _ _ := .atom (.matchCase _ _)
  showValue _ := .atom (.showValue _)
  missingBreak := .atom (.raise _)
  misplacedBreak := .recover _
  stray _ := .atom (.throw _)

section Extension

variable {settings : Settings}

/-- The variables may change without anything being taken back. -/
theorem extending_stores : extending.AllowsStores :=
  -- Only the variables have changed.
  fun _ _ => ⟨List.prefix_rfl, List.prefix_rfl, Nat.le_refl _⟩

/-- A report takes nothing back. -/
theorem recover_extending (fault : Fault) : extending.Keeps (recover settings fault) := by
  intro world
  rw [recover_run]
  -- A report is one more fault and one more shown line; nothing is written or read.
  split
  · exact extending.refl world
  · exact ⟨by simp, by simp, by simp⟩

end Extension

/-- In all runs nothing is taken back. -/
def extendingRuns (settings : Settings) : Congruence settings settings .any :=
  extending_stores.runs recover_extending

namespace Program

variable {settings : Settings} {program : Program} {world : World}

/-- The last world of a run extends every world in its history. -/
theorem run_extends {moment : World} (member : moment ∈ program.history settings world) :
    (program.run settings world).2.Extends moment := by
  have linked := (extendingRuns settings).program program (blockUses_any program.body)
  have last : extending.Rel moment ((program.walk settings).step world).2 :=
    Walk.Linked.rel_end linked member
  rwa [walk_step] at last

/-- A run that is not strict and its strict counterpart, for a number of turns: either nothing is
reported and both end alike, or the strict run ends with the first fault, in the world in which
the other run reports it. -/
theorem run_strictly (settings : Settings) (program : Program) (world : World) :
    ((program.run settings.loosely world).2.faults = world.faults ∧
      program.run settings.strictly world = program.run settings.loosely world) ∨
    ∃ fault moment before later,
      program.history settings.loosely world =
        before ++ moment :: moment.reporting settings fault :: later ∧
      (∀ earlier ∈ before ++ [moment], unreported.Rel world earlier) ∧
      program.run settings.strictly world = (.error (.fault fault), moment) := by
  -- The comparison of the walks is read off for the whole program.
  have compared := (comparedRuns settings).program program (blockUses_any program.body) world
  cases compared with
  -- The whole way is silent, and so is its end.
  | same silent agrees =>
    rw [walk_step, walk_step] at agrees
    refine .inl ⟨?_, agrees⟩
    have last := List.mem_of_getLast? (history_getLast? settings.loosely program world)
    exact (Walk.Comparable.silent_end silent _ last).1
  | stops fault moment before later split silent agrees =>
    -- The strict run has stopped in the world of the first report.
    rw [walk_step] at agrees
    exact .inr ⟨fault, moment, before, later, split, silent, agrees⟩

end Program

/-- A strict run agrees with one that is not up to the first fault that the latter reports. If it
reports none, the strict run ends in the same way and in the same world. If it does, the strict run
ends with the first of them, has reported nothing, and leaves the world that the other run had at
the moment of its first report: what is written then is the start of what is written in the end,
and no more lines have been asked for. -/
theorem Program.strict_endsWith {settings : Settings} {program : Program} {world after : World}
    {outcome : Except Failure Unit}
    (ended : program.EndsWith settings.loosely world outcome after) :
    (after.faults = world.faults ∧ program.EndsWith settings.strictly world outcome after) ∨
    ∃ (first : Fault) (more : List Fault) (moment : World),
      after.faults.toList = world.faults.toList ++ first :: more ∧
      program.EndsWith settings.strictly world (.error (.fault first)) moment ∧
      moment.faults = world.faults ∧ moment.console.reports = world.console.reports ∧
      moment.console.output.toList <+: after.console.output.toList ∧
      moment.console.linesRead ≤ after.console.linesRead ∧
      ∃ turns before later,
        program.run (settings.loosely.withTurns turns) world = (outcome, after) ∧
        program.history (settings.loosely.withTurns turns) world =
          before ++ moment :: moment.reporting settings first :: later ∧
        ∀ earlier ∈ before, earlier.faults = world.faults := by
  obtain ⟨finished, enough, done⟩ := ended
  -- The run that is not strict has ended in this world.
  have loose := done enough (Nat.le_refl _)
  -- Enough turns for the run that is not strict are compared with the same turns for the other.
  rcases run_strictly (settings.withTurns enough) program world with
    ⟨silent, agrees⟩ | ⟨first, moment, before, later, split, silent, agrees⟩
  · -- There are no reports, so that the strict run is the same.
    change (program.run (settings.loosely.withTurns enough) world).2.faults = _ at silent
    change program.run (settings.strictly.withTurns enough) world =
      program.run (settings.loosely.withTurns enough) world at agrees
    rw [loose] at silent agrees
    exact .inl ⟨silent, endsWith_of_run agrees finished⟩
  · change program.history (settings.loosely.withTurns enough) world =
      before ++ moment :: moment.reporting settings first :: later at split
    have quiet := silent moment (by simp)
    -- The report itself and the worlds after it only add to what is there.
    have reported : after.Extends (moment.reporting settings first) := by
      have member : moment.reporting settings first ∈
          program.history (settings.loosely.withTurns enough) world := by
        simp [split]
      have last := run_extends member
      rwa [loose] at last
    obtain ⟨more, faults⟩ := reported.faults
    refine .inr ⟨first, more, moment, ?_, endsWith_of_run agrees (by simp), quiet.1, quiet.2, ?_,
      ?_, enough, before, later, loose, split, fun earlier member => ?_⟩
    · -- The faults of the last world start with those that were there and the first report.
      rw [← faults]
      simp [quiet.1]
    · simpa using reported.output
    · simpa using reported.linesRead
    · exact (silent earlier (by simp [member])).1

/-- A program that assigns a variable that is not declared, between two displays: the run that is
not strict returns, and the strict run stops with the fault, which it does not report. -/
theorem Program.strict_endsWith_undeclared :
    ∃ (program : Program) (after : World),
      program.EndsWith (Settings.loosely {}) (World.start []) (.ok ()) after ∧
      ∃ moment,
        program.EndsWith (Settings.strictly {}) (World.start [])
          (.error (.fault (.undeclaredVariable "n"))) moment ∧
        moment.faults = #[] ∧ moment.console.output.toList <+: after.console.output.toList := by
  let one : Expr := .literal (.value (.integer 1))
  -- The variable has not been declared when the second statement is run.
  let program : Program := ⟨[.display one, .assign [.ofName "n"] one, .display one]⟩
  have ended : program.EndsWith (Settings.loosely {}) (World.start []) (.ok ())
      (program.run (Settings.withTurns (Settings.loosely {}) 0) (World.start [])).2 :=
    endsWith_of_run rfl (by simp)
  refine ⟨program, _, ended, ?_⟩
  rcases strict_endsWith ended with
    ⟨silent, -⟩ | ⟨first, more, moment, faults, stops, silent, -, written, -⟩
  · -- The run that is not strict has reported a fault.
    cases silent
  · have same : Fault.undeclaredVariable "n" = first := (List.cons.inj faults).1
    exact ⟨moment, same ▸ stops, silent, written⟩

end Pseudocode
