import Pseudocode.Proofs.Exec.Strict
import Pseudocode.Proofs.Store.View

/-! Two runs side by side: from worlds that correspond they go the same way, and they leave worlds
that correspond. -/

namespace Pseudocode

/-- Two settings under which runs go the same way, though one may be traced in more detail. -/
structure Settings.Alike (left right : Settings) : Prop where
  /-- A fault stops both runs or neither. -/
  strict : right.strict = left.strict
  /-- Loops have the same number of turns. -/
  turns : right.turns = left.turns

/-- Settings are like themselves. -/
theorem Settings.Alike.refl (settings : Settings) : settings.Alike settings :=
  -- Both settings agree with themselves in whatever is compared.
  ⟨rfl, rfl⟩

/--
A correspondence between the worlds of two runs that is kept by all that a step can do to them.

The runs may differ in their settings, and only variables of allowed labels are looked at. The
comparison may come to an end, and from there on nothing is said about the second run.
-/
structure Coupling (left right : Settings) (allowed : Label → Prop) where
  /-- Two worlds correspond. -/
  Rel : World → World → Prop
  /-- The comparison has come to an end. -/
  -- A comparison ends where the two inputs may begin to differ.
  Over : World → Prop
  /-- A comparison that has come to its end stays there. -/
  lasting : ∀ {world later}, later.Extends world → Over world → Over later
  /-- The runs go the same way. -/
  alike : left.Alike right
  /-- The variables of allowed labels are the same. -/
  agrees : ∀ {world world'}, Rel world world' → world.store.Agrees allowed world'.store
  /-- An event is traced. -/
  noting : ∀ {world world'} event, Rel world world' →
    Rel (world.noting left event) (world'.noting right event)
  /-- A fault is reported. -/
  reporting : ∀ {world world'} fault, Rel world world' →
    Rel (world.reporting left fault) (world'.reporting right fault)
  /-- A line is written. -/
  writing : ∀ {world world'} line, Rel world world' →
    Rel (world.writing line) (world'.writing line)
  /-- A line is read: the same one, unless the comparison ends here. -/
  reading : ∀ {world world'}, Rel world world' → Over world.reading ∨
    (world'.console.readLine.1 = world.console.readLine.1 ∧ Rel world.reading world'.reading)
  /-- A variable is declared that neither store has. -/
  adding : ∀ {world world' label} typing value, Rel world world' → allowed label →
    world.store.view label = none →
    Rel (world.storing (world.store.add label typing value))
      (world'.storing (world'.store.add label typing value))
  /-- A variable is given a value. -/
  setting : ∀ {world world' label} value, Rel world world' → allowed label →
    Rel (world.storing (world.store.set label value))
      (world'.storing (world'.store.set label value))

/-- A report takes nothing back. -/
theorem World.reporting_extends (world : World) (settings : Settings) (fault : Fault) :
    (world.reporting settings fault).Extends world :=
  -- All of the three things that a run adds to can only grow.
  ⟨by simp, by simp, by simp⟩

/-- Containing a step takes nothing back that the step has done. -/
theorem contain_extends {α : Type} (settings : Settings) (step : Exec α) (instead : α)
    (world : World) : (contain settings step instead world).2.Extends (step world).2 := by
  -- A step inside has ended in one of three ways, and only a fault is got over.
  rw [contain_run]
  rcases step world with ⟨failure | a, after⟩
  · cases failure with
    | fault fault =>
      dsimp only
      -- A fault that is reported is one thing more.
      split
      · exact extending.refl after
      · exact after.reporting_extends settings fault
    | defect defect => exact extending.refl after
    | unfinished => exact extending.refl after
  · exact extending.refl after

namespace Coupling

variable {α β : Type} {left right : Settings} {allowed : Label → Prop}

/-- Two steps go together: from worlds that correspond they have the same outcome and leave worlds
that correspond, unless the comparison ends on the way. -/
structure InStep (coupling : Coupling left right allowed) (step step' : Exec α) : Prop where
  -- This is needed so that a comparison that is over stays so.
  /-- The first step takes nothing back. -/
  keeps : extending.Keeps step
  /-- Both steps end alike. -/
  meets : ∀ {world world'}, coupling.Rel world world' → coupling.Over (step world).2 ∨
    ((step' world').1 = (step world).1 ∧ coupling.Rel (step world).2 (step' world').2)

namespace InStep

variable {coupling : Coupling left right allowed}

/-- A value alone is the same in both runs. -/
theorem pure (a : α) : coupling.InStep (Pure.pure a) (Pure.pure a) where
  keeps := .pure a
  -- Nothing has been done in either run.
  meets related := .inr ⟨rfl, related⟩

/-- A failure alone is the same in both runs. -/
theorem throw (failure : Failure) :
    coupling.InStep (MonadExcept.throw failure : Exec α) (MonadExcept.throw failure) where
  keeps := .throw failure
  meets related := .inr ⟨rfl, related⟩

/-- A fault is raised in both runs. -/
theorem raise (fault : Fault) :
    coupling.InStep (raise fault : Exec α) (Pseudocode.raise fault) :=
  throw (.fault fault)

/-- The same result is taken over in both runs. -/
theorem ofResult (result : Except Failure α) :
    coupling.InStep (ofResult result) (Pseudocode.ofResult result) := by
  -- A result is a value or a failure, and each of them is known to go together.
  cases result with
  | error failure => exact throw failure
  | ok a => exact pure a

/-- An event is traced in both runs. -/
theorem note (event : Event) : coupling.InStep (note left event) (Pseudocode.note right event) where
  keeps := .note event
  meets related := by
    -- The same event is traced on both sides, or left out, as the settings have it.
    rw [note_run, note_run]
    exact .inr ⟨rfl, coupling.noting event related⟩

/-- A line is written in both runs. -/
theorem writeLine (line : String) :
    coupling.InStep (writeLine line) (Pseudocode.writeLine line) where
  keeps world := extending.writing line world
  meets related := .inr ⟨rfl, coupling.writing line related⟩

/-- A line is read in both runs. -/
theorem nextLine : coupling.InStep nextLine Pseudocode.nextLine where
  keeps world := extending.reading world
  meets related := by
    rw [nextLine_run, nextLine_run]
    -- Either the comparison ends with this line, or both runs have read the same one.
    rcases coupling.reading related with past | ⟨same, onward⟩
    · exact .inl past
    · exact .inr ⟨by rw [same], onward⟩

/-- A fault stops both runs, or both report it. -/
theorem recover (fault : Fault) :
    coupling.InStep (recover left fault) (Pseudocode.recover right fault) where
  keeps := recover_extending fault
  meets related := by
    -- Both settings are strict or neither is.
    rw [recover_run, recover_run, coupling.alike.strict]
    split
    · exact .inr ⟨rfl, related⟩
    · exact .inr ⟨rfl, coupling.reporting fault related⟩

/-- Steps in turn go together when each of them does. -/
theorem bind {first first' : Exec α} {next next' : α → Exec β}
    (start : coupling.InStep first first')
    (rest : ∀ a, (∃ world, (first world).1 = .ok a) → coupling.InStep (next a) (next' a)) :
    coupling.InStep (first >>= next) (first' >>= next') := by
  -- The second step starts where the first has ended, and only adds to what is there.
  have onward : ∀ world, ((first >>= next) world).2.Extends (first world).2 := by
    intro world
    rw [Exec.bind_run]
    rcases done : first world with ⟨failure | a, after⟩
    · exact extending.refl after
    · exact (rest a ⟨world, by rw [done]⟩).keeps after
  constructor
  · intro world
    exact extending.trans (start.keeps world) (onward world)
  · intro world world' related
    rcases start.meets related with past | ⟨same, related'⟩
    · -- What ends the comparison in the first step ends it in both.
      exact .inl (coupling.lasting (onward world) past)
    · -- How the first step ends decides whether there is a second one, in both runs alike.
      rw [Exec.bind_run, Exec.bind_run]
      rcases done : first world with ⟨failure | a, after⟩
      · -- The first step fails, and so both runs end with this failure.
        rcases done' : first' world' with ⟨outcome, after'⟩
        simp only [done, done'] at same related'
        subst same
        exact .inr ⟨rfl, related'⟩
      · -- The first step gives a value, and the second one starts with it in both runs.
        rcases done' : first' world' with ⟨outcome, after'⟩
        simp only [done, done'] at same related'
        subst same
        exact (rest a ⟨world, by rw [done]⟩).meets related'

/-- What both stores answer alike is taken over in both runs. -/
theorem asks (ask : Store → Except Failure α)
    (same : ∀ {world world'}, coupling.Rel world world' → ask world'.store = ask world.store) :
    coupling.InStep (do Pseudocode.ofResult (ask (← get).store))
      (do Pseudocode.ofResult (ask (← get).store)) := by
  constructor
  · exact Frame.Keeps.get.bind fun _ => .ofResult _
  · intro world world' related
    -- The question changes nothing, so that the worlds still correspond.
    simp only [Exec.bind_run, Exec.get_run, ofResult_run]
    exact .inr ⟨same related, related⟩

/-- Steps that begin with a question to the store go together when both stores answer alike. -/
theorem asking (ask : Store → Except Failure α) {next next' : α → Exec β}
    (same : ∀ {world world'}, coupling.Rel world world' → ask world'.store = ask world.store)
    (rest : ∀ a, coupling.InStep (next a) (next' a)) :
    coupling.InStep (do next (← Pseudocode.ofResult (ask (← get).store)))
      (do next' (← Pseudocode.ofResult (ask (← get).store))) := by
  -- The question is the first of two steps.
  simpa only [bind_assoc] using (asks ask same).bind fun a _ => rest a

/-- Contained steps go together when the steps do. -/
theorem contain {step step' : Exec α} (inside : coupling.InStep step step') (instead : α) :
    coupling.InStep (contain left step instead) (Pseudocode.contain right step' instead) := by
  constructor
  · -- Containing adds at most a report to what the step has done.
    intro world
    exact extending.trans (inside.keeps world) (contain_extends left step instead world)
  · intro world world' related
    rcases inside.meets related with past | ⟨same, related'⟩
    · exact .inl (coupling.lasting (contain_extends left step instead world) past)
    · -- The same fault is got over in both runs, and all else passes through.
      rw [contain_run, contain_run, coupling.alike.strict]
      rcases done : step world with ⟨outcome, after⟩
      rcases done' : step' world' with ⟨outcome', after'⟩
      simp only [done, done'] at same related'
      subst same
      rcases outcome' with failure | a
      · cases failure with
        | fault fault =>
          dsimp only
          split
          · exact .inr ⟨rfl, related'⟩
          · exact .inr ⟨rfl, coupling.reporting fault related'⟩
        | defect defect => exact .inr ⟨rfl, related'⟩
        | unfinished => exact .inr ⟨rfl, related'⟩
      · exact .inr ⟨rfl, related'⟩

end InStep

section Steps

variable (coupling : Coupling left right allowed)

/-- An expression with allowed labels gives the same in both runs. -/
theorem eval_eq {expr : Expr} (permitted : ∀ label ∈ expr.labels, allowed label)
    {world world' : World} (related : coupling.Rel world world') :
    expr.eval world'.store = expr.eval world.store :=
  -- Evaluation depends only on the variables whose labels occur.
  expr.eval_congr fun label member => coupling.agrees related label (permitted label member)

/-- A display list with allowed labels gives the same in both runs. -/
theorem evalDisplay_eq {expr : Expr} (permitted : ∀ label ∈ expr.labels, allowed label)
    {world world' : World} (related : coupling.Rel world world') :
    expr.evalDisplay world'.store = expr.evalDisplay world.store :=
  expr.evalDisplay_congr fun label member => coupling.agrees related label (permitted label member)

/-- An expression is evaluated in both runs. -/
theorem evaluate {expr : Expr} (permitted : ∀ label ∈ expr.labels, allowed label) :
    coupling.InStep (evaluate expr) (Pseudocode.evaluate expr) :=
  .asks (fun store => expr.eval store) (coupling.eval_eq permitted)

/-- A name is declared in both runs. -/
theorem declareName (typing : Typing) (initial : Option Datum) {name : Target}
    (permitted : ∀ label ∈ name.labels, allowed label) :
    coupling.InStep (declareName left typing initial name)
      (Pseudocode.declareName right typing initial name) := by
  -- Whatever comes of it, a declaration takes nothing back.
  refine ⟨.declareName extending_stores recover_extending typing initial name, ?_⟩
  intro world world' related
  cases name with
  | stray defect => exact .inr ⟨rfl, related⟩
  | named label =>
    have occurs := permitted label (by simp [Target.labels])
    -- The two stores tell the same about the label.
    rw [declareName_run, declareName_run, coupling.agrees related label occurs]
    cases starts : Store.startingValue label typing initial (world.store.view label) with
    -- A fault is got over in both runs; any other failure ends both.
    | error failure =>
      cases failure with
      | fault fault => exact (InStep.recover fault).meets related
      | defect defect => exact .inr ⟨rfl, related⟩
      | unfinished => exact .inr ⟨rfl, related⟩
    | ok value =>
      -- The label is free in both stores, so that both have the new variable now.
      have fresh := Store.view_eq_none_of_startingValue starts
      have added := coupling.adding typing value related occurs fresh
      exact .inr ⟨rfl, coupling.noting _ added⟩

/-- A variable is given a value in both runs. -/
theorem assignLabel (how : Update) (datum : Datum) {label : Label} (occurs : allowed label) :
    coupling.InStep (assignLabel left how datum label)
      (Pseudocode.assignLabel right how datum label) := by
  refine ⟨.assignLabel extending_stores how datum label, ?_⟩
  intro world world' related
  -- What an assignment does is decided by what the store tells about the label.
  rw [assignLabel_run, assignLabel_run, Store.assign_eq, Store.assign_eq,
    coupling.agrees related label occurs]
  cases Store.admittedValue label datum (world.store.view label) with
  | error failure => exact .inr ⟨rfl, related⟩
  | ok value =>
    have changed := coupling.setting value related occurs
    simp only [Except.map]
    -- The value has been stored in both, whether or not it can be traced.
    cases datum.toValue with
    | error failure => exact .inr ⟨rfl, changed⟩
    | ok traced => exact .inr ⟨rfl, coupling.noting _ changed⟩

/-- A name is assigned in both runs. -/
theorem assignName (datum : Datum) {name : Target}
    (permitted : ∀ label ∈ name.labels, allowed label) :
    coupling.InStep (assignName left datum name) (Pseudocode.assignName right datum name) := by
  cases name with
  -- A target without a label is a defect in both runs.
  | stray defect => exact .throw (.defect defect)
  | named label =>
    have occurs := permitted label (by simp [Target.labels])
    exact coupling.assignLabel .assign datum occurs

/-- A name is scanned in both runs. -/
theorem scanName {name : Target} (permitted : ∀ label ∈ name.labels, allowed label) :
    coupling.InStep (scanName left name) (Pseudocode.scanName right name) := by
  cases name with
  | stray defect => exact .throw (.defect defect)
  | named label =>
    have occurs := permitted label (by simp [Target.labels])
    -- The type comes from the store, the line from the console, and the value from both.
    refine .asking (fun store => liftFault (store.typing label)) ?_ fun typing => ?_
    · intro world world' related
      rw [Store.typing_eq, Store.typing_eq, coupling.agrees related label occurs]
    · refine InStep.nextLine.bind fun line _ => ?_
      exact (InStep.ofResult _).bind fun value _ => coupling.assignLabel .scan (.value value) occurs

/-- A condition is found in both runs. -/
theorem condition (conditional : Conditional) {test : Expr}
    (permitted : ∀ label ∈ test.labels, allowed label) :
    coupling.InStep (condition left conditional test)
      (Pseudocode.condition right conditional test) := by
  refine .asking (fun store => test.eval store) (coupling.eval_eq permitted) fun datum => ?_
  refine (InStep.note _).bind fun _ _ => (InStep.ofResult _).bind fun value _ => ?_
  -- Only a truth value decides.
  split
  · exact .pure _
  · exact .raise _

/-- The subject of a switch is found in both runs. -/
theorem switchSubject {subject : Expr} (permitted : ∀ label ∈ subject.labels, allowed label) :
    coupling.InStep (switchSubject left subject) (Pseudocode.switchSubject right subject) := by
  -- The subject is evaluated in both stores before it is noted.
  refine .asking (fun store => subject.eval store) (coupling.eval_eq permitted) fun datum => ?_
  exact (InStep.note _).bind fun _ _ => .pure _

/-- The value of a case is compared in both runs. -/
theorem matchCase (subject : Datum) {value : Expr}
    (permitted : ∀ label ∈ value.labels, allowed label) :
    coupling.InStep (matchCase subject value) (Pseudocode.matchCase subject value) := by
  refine (coupling.evaluate permitted).bind fun datum _ => ?_
  refine (InStep.ofResult _).bind fun candidate _ => (InStep.ofResult _).bind fun subject _ => ?_
  dsimp only
  -- Values of different kinds raise the same fault in both runs.
  split
  · exact (InStep.raise _).bind fun _ _ => .pure _
  · exact .pure _

/-- A display list is shown in both runs. -/
theorem showValue {expr : Expr} (permitted : ∀ label ∈ expr.labels, allowed label) :
    coupling.InStep (showValue expr) (Pseudocode.showValue expr) := by
  refine .asking (fun store => expr.evalDisplay store) (coupling.evalDisplay_eq permitted)
    fun datum => ?_
  exact (InStep.ofResult _).bind fun value _ => .writeLine _

/-- All runs of statements with allowed labels go together. -/
def congruence : Congruence left right (.labelled Expr.labels allowed) where
  Rel walk walk' := coupling.InStep walk.step walk'.step
  pure := .pure _
  bind := .bind
  contain inside := inside.contain _
  loop tests bodies := by
    -- A loop has the same number of turns in both runs.
    rw [coupling.alike.turns]
    exact Walk.loop_congr (fun _ walk walk' => coupling.InStep walk.step walk'.step) (.pure _) .bind
      (.throw .unfinished) tests bodies left.turns
  start _ := .note _
  evaluate := coupling.evaluate
  declareName _ _ := coupling.declareName _ _
  assignName _ := coupling.assignName _
  scanName := coupling.scanName
  condition := coupling.condition _
  subject := coupling.switchSubject
  matchCase _ := coupling.matchCase _
  showValue := coupling.showValue
  missingBreak := .raise _
  misplacedBreak := .recover _
  stray _ := .throw _

/-- Runs of a program with allowed labels go together. -/
theorem run_meets {program : Program} (uses : program.Uses (.labelled Expr.labels allowed))
    {world world' : World} (related : coupling.Rel world world') :
    coupling.Over (program.run left world).2 ∨
      ((program.run right world').1 = (program.run left world).1 ∧
        coupling.Rel (program.run left world).2 (program.run right world').2) := by
  have together : coupling.InStep (program.walk left).step (program.walk right).step :=
    -- The run of a program is its walk, taken as a step.
    coupling.congruence.program program uses
  rw [Program.walk_step, Program.walk_step] at together
  exact together.meets related

end Steps

end Coupling

/-- Where all labels are allowed, every program has allowed parts. -/
theorem Program.uses_labelled (program : Program) (ofExpr : Expr → List Label) :
    program.Uses (.labelled ofExpr fun _ => True) :=
  -- With no label forbidden there is nothing to be checked.
  blockUses_of_gather program.body fun _ _ => trivial

end Pseudocode
