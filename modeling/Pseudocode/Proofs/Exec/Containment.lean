import Pseudocode.Proofs.Exec.Progress
import Pseudocode.Proofs.Exec.Strict

/-! What becomes of the faults that a run raises: each is reported once where it is contained, or it
ends the run. -/

namespace Pseudocode

variable {α β : Type} {settings : Settings}

/-- The fault that an outcome is, if it is one. -/
def escaped : Except Failure α → List Fault
  | .error (.fault fault) => [fault]
  | _ => []

/-- The faults that the single steps of a walk raise from a world on, in order.

Most steps report nothing, and raise the fault that they end with. The two that may report a fault
themselves raise it all the same. Containing a walk raises nothing new. -/
inductive Walk.Raises (settings : Settings) : {α : Type} → Walk α → World → List Fault → Prop where
  -- A value raises nothing.
  | pure {α : Type} (a : α) (world : World) : Raises settings (Pure.pure a : Walk α) world []
  | step {α : Type} {step : Exec α} (quiet : unreported.Keeps step) (world : World) :
    Raises settings (.atom step) world (escaped (step world).1)
  /-- A declaration raises what would stop it in a strict run. -/
  | declareName (typing : Typing) (initial : Option Datum) (name : Target) (world : World) :
    Raises settings (.atom (declareName settings typing initial name)) world
      (escaped (declareName settings.strictly typing initial name world).1)
  -- A fault that is got over has been raised before.
  | recover (fault : Fault) (world : World) :
    Raises settings (.atom (recover settings fault)) world [fault]
  -- What fails first is all that is raised.
  | failed {α β : Type} {first : Walk α} {next : α → Walk β} {world after : World}
    {failure : Failure} {raised : List Fault} (start : Raises settings first world raised)
    (done : first.step world = (.error failure, after)) :
    Raises settings (first >>= next) world raised
  | onward {α β : Type} {first : Walk α} {next : α → Walk β} {world after : World} {a : α}
    {raised later : List Fault} (start : Raises settings first world raised)
    (done : first.step world = (.ok a, after)) (rest : Raises settings (next a) after later) :
    Raises settings (first >>= next) world (raised ++ later)
  -- The fault that is contained has been raised inside.
  | contain {α : Type} {walk : Walk α} {world : World} {raised : List Fault} (instead : α)
    (inside : Raises settings walk world raised) :
    Raises settings (walk.contain settings instead) world raised

/-- A result accounts for raised faults: some of them have been reported, in order, and the one that
may be left is the outcome. -/
structure Accounts (settings : Settings) (world : World) (raised reported : List Fault)
    (result : Except Failure α × World) : Prop where
  /-- What has been raised is what has been reported, and the outcome after that. -/
  complete : raised = reported ++ escaped result.1
  /-- The world lists what has been reported. -/
  faults : result.2.faults.toList = world.faults.toList ++ reported
  /-- What is shown is the text of each fault. -/
  reports : result.2.console.reports.toList =
    world.console.reports.toList ++ reported.map fun fault => "Error: " ++ fault.message
  /-- Only faults that are not fatal are reported. -/
  recoverable : ∀ fault ∈ reported, fault.isFatal = false
  /-- A strict run reports nothing. -/
  strict : settings.strict = true → reported = []

namespace Accounts

/-- A result for which nothing has been reported accounts for its own fault. -/
theorem quiet {world after : World} (outcome : Except Failure α)
    (same : unreported.Rel world after) :
    -- The outcome is the only fault there can be, and no report has been added.
    Accounts settings world (escaped outcome) [] (outcome, after) where
  complete := rfl
  faults := by rw [same.1, List.append_nil]
  reports := by rw [same.2, List.map_nil, List.append_nil]
  recoverable := by simp
  strict _ := rfl

/-- A fault on its way out is accounted for when it is reported. -/
theorem report {world after : World} {raised reported : List Fault} {fault : Fault}
    (leaving : Accounts settings world raised reported
      ((.error (.fault fault), after) : Except Failure α × World))
    (stays : ¬ (fault.isFatal || settings.strict) = true) (a : α) :
    Accounts settings world raised (reported ++ [fault])
      ((.ok a, after.reporting settings fault) : Except Failure α × World) := by
  -- The reports so far are those before the walk and those of the walk.
  have before := leaving.faults
  have shown := leaving.reports
  simp only [Bool.or_eq_true, not_or, Bool.not_eq_true] at stays
  dsimp only at before shown
  refine ⟨?_, by simp [before], by simp [shown], ?_, ?_⟩
  · -- It was the one fault that had been raised and not reported.
    rw [leaving.complete]
    exact (List.append_nil _).symm
  -- The fault is not fatal, or it would have gone on.
  · intro other member
    rcases List.mem_append.mp member with earlier | last
    · exact leaving.recoverable other earlier
    · exact List.mem_singleton.mp last ▸ stays.1
  -- A strict run would not have come to this.
  · intro strict
    rw [stays.2] at strict
    cases strict

/-- Getting over a fault accounts for it: it is raised again, or it is reported. -/
theorem recover (fault : Fault) (world : World) :
    ∃ reported, Accounts settings world [fault] reported (recover settings fault world) := by
  have leaving : Accounts settings world [fault] []
      ((.error (.fault fault), world) : Except Failure Unit × World) :=
    quiet (.error (.fault fault)) (unreported.refl world)
  -- The fault is raised again in a strict run or if it is fatal, and otherwise reported.
  rw [recover_run]
  split
  · exact ⟨[], leaving⟩
  · rename_i stays
    exact ⟨[fault], leaving.report stays ()⟩

/-- What is accounted for by a first result and by one that follows it is accounted for by the
latter. -/
theorem trans {world after : World} {a : α} {raised later reported more : List Fault}
    {result : Except Failure β × World}
    (start : Accounts settings world raised reported ((.ok a, after) : Except Failure α × World))
    (rest : Accounts settings after later more result) :
    Accounts settings world (raised ++ later) (reported ++ more) result where
  -- The reports of the two parts stand one after the other.
  complete := by
    -- The first result is no fault, so that all that it raised has been reported.
    have first : raised = reported := start.complete.trans (List.append_nil _)
    rw [first, rest.complete, List.append_assoc]
  faults := by rw [rest.faults, start.faults, List.append_assoc]
  reports := by rw [rest.reports, start.reports, List.map_append, List.append_assoc]
  recoverable fault member := (List.mem_append.mp member).elim (start.recoverable fault)
    (rest.recoverable fault)
  strict strict := by rw [start.strict strict, rest.strict strict, List.append_nil]

/-- What a failure accounts for, it accounts for in the place of any other result. -/
theorem failed {world after : World} {raised reported : List Fault} {failure : Failure}
    (account : Accounts settings world raised reported
      ((.error failure, after) : Except Failure α × World)) :
    Accounts settings world raised reported
      ((.error failure, after) : Except Failure β × World) where
  complete := by
    rw [account.complete]
    -- Only the fault of the failure counts, and that is the same.
    cases failure <;> rfl
  faults := account.faults
  reports := account.reports
  recoverable := account.recoverable
  strict := account.strict

/-- A contained walk accounts for what the walk itself accounts for: a fault on its way out has not
been reported, and containing it lets it through or reports it. -/
theorem contain {walk : Walk α} {world : World} {raised reported : List Fault} (instead : α)
    (inside : Accounts settings world raised reported (walk.step world)) :
    ∃ reported, Accounts settings world raised reported
      ((walk.contain settings instead).step world) := by
  -- What the walk has done is looked at before its fault is.
  rw [Walk.contain_step, contain_run]
  rcases done : walk.step world with ⟨failure | a, after⟩
  · rw [done] at inside
    cases failure with
    | fault fault =>
      dsimp only
      -- The fault goes on, and is accounted for as before.
      split
      · exact ⟨reported, inside⟩
      · rename_i stays
        exact ⟨reported ++ [fault], inside.report stays instead⟩
    | defect defect => exact ⟨reported, inside⟩
    | unfinished => exact ⟨reported, inside⟩
  -- There is no fault to be got over.
  · rw [done] at inside
    exact ⟨reported, inside⟩

/-- Declaring a name accounts for what would stop it in a strict run. -/
theorem declareName (typing : Typing) (initial : Option Datum) (name : Target) (world : World) :
    ∃ reported, Accounts settings world
      (escaped (declareName settings.strictly typing initial name world).1) reported
      (declareName settings typing initial name world) := by
  -- A target without a label is a defect, which is no fault.
  cases name with
  | stray defect => exact ⟨[], quiet _ (unreported.refl world)⟩
  | named label =>
    rw [declareName_run, declareName_run]
    cases Store.startingValue label typing initial (world.store.view label) with
    | error failure =>
      -- Only a fault is got over, and a strict run is stopped by it.
      cases failure with
      | fault fault =>
        have stopped : (Pseudocode.recover settings.strictly fault world).1 =
            .error (.fault fault) := by
          rw [recover_run, Settings.strictly, Bool.or_true, if_pos rfl]
        dsimp only
        rw [stopped]
        exact recover fault world
      | defect defect => exact ⟨[], quiet _ (unreported.refl world)⟩
      | unfinished => exact ⟨[], quiet _ (unreported.refl world)⟩
    -- A declaration that succeeds reports nothing.
    | ok value => exact ⟨[], quiet _ (unreported.noting settings _ (world.storing _))⟩

end Accounts

/-- What the steps of a walk raise, the walk accounts for. -/
theorem Walk.Raises.accounts {walk : Walk α} {world : World} {raised : List Fault}
    (raises : walk.Raises settings world raised) :
    ∃ reported, Accounts settings world raised reported (walk.step world) := by
  -- The induction is on how the walk is put together from its steps.
  induction raises with
  | pure a world => exact ⟨[], .quiet (.ok a) (unreported.refl world)⟩
  | step quiet world => exact ⟨[], .quiet _ (quiet world)⟩
  | declareName typing initial name world => exact Accounts.declareName typing initial name world
  | recover fault world => exact Accounts.recover fault world
  -- The first part fails, and so the whole has its account.
  | failed start done ih =>
    obtain ⟨reported, account⟩ := ih
    refine ⟨reported, ?_⟩
    rw [done] at account
    rw [bind_step, Exec.bind_run, done]
    exact account.failed
  -- The accounts of the two parts are added up.
  | onward start done rest ih ih' =>
    obtain ⟨reported, account⟩ := ih
    obtain ⟨more, further⟩ := ih'
    rw [done] at account
    refine ⟨reported ++ more, ?_⟩
    rw [bind_step, Exec.bind_run, done]
    exact account.trans further
  | contain instead inside ih =>
    obtain ⟨reported, account⟩ := ih
    exact account.contain instead

/-- From every world on there are faults that a walk raises, though it may be none. -/
def Walk.Traceable (settings : Settings) (walk : Walk α) : Prop :=
  ∀ world, ∃ raised, walk.Raises settings world raised

namespace Walk.Traceable

/-- A step that reports nothing raises what it ends with. -/
theorem step {step : Exec α} (quiet : unreported.Keeps step) :
    (Walk.atom step).Traceable settings :=
  fun world => ⟨_, .step quiet world⟩

/-- Two walks in turn raise what the first one does and then what the second one does. -/
theorem bind {first : Walk α} {next : α → Walk β} (start : first.Traceable settings)
    (rest : ∀ a, first.Gives a → (next a).Traceable settings) :
    (first >>= next).Traceable settings := by
  intro world
  obtain ⟨raised, here⟩ := start world
  -- Only if the first walk gives a value is there a second one.
  rcases done : first.step world with ⟨failure | a, after⟩
  · exact ⟨raised, .failed here done⟩
  · obtain ⟨later, onward⟩ := rest a ⟨world, by rw [done]⟩ after
    exact ⟨raised ++ later, .onward here done onward⟩

end Walk.Traceable

/-- The faults of every run can be traced to the steps that raise them. -/
def traceableRuns (settings : Settings) : Congruence settings settings .any where
  Rel walk _ := walk.Traceable settings
  pure world := ⟨[], .pure _ world⟩
  bind := .bind
  -- What is raised inside is raised by the whole.
  contain inside world := (inside world).imp fun _ raises => .contain _ raises
  loop tests bodies := Walk.loop_of (fun _ walk => walk.Traceable settings)
    (fun world => ⟨[], .pure _ world⟩) .bind (.step (.throw _)) tests bodies settings.turns
  start _ := .step (.note _)
  evaluate _ := .step (.evaluate _)
  declareName _ _ _ world := ⟨_, .declareName _ _ _ world⟩
  assignName _ _ := .step (.assignName unreported_stores _ _)
  scanName _ := .step (.scanName unreported_stores _)
  condition _ := .step (.condition _ _)
  subject _ := .step (.switchSubject _)
  matchCase _ _ := .step (.matchCase _ _)
  showValue _ := .step (.showValue _)
  missingBreak := .step (.raise _)
  misplacedBreak world := ⟨_, .recover _ world⟩
  stray _ := .step (.throw _)

/-- Only a fatal fault gets through a list of statements in a run that is not strict. -/
theorem execBlock_onlyFatal (loose : settings.strict = false) (body : List Stmt) :
    (execBlock settings body).OnlyFatal := by
  -- The induction is on the statements, each of which is contained.
  induction body with
  | nil => exact .pure Flow.normal
  | cons stmt rest ih =>
    rw [execBlock]
    refine (Exec.OnlyFatal.contain loose _ _).bind fun flow => ?_
    cases flow with
    | exit => exact .pure Flow.exit
    | normal => exact ih

/-- Faults are contained. Every fault that a step of a run raises, however deeply the step is
nested, is either reported, once and in the order of the raising, or it is the outcome of the run.
Only faults that are not fatal are reported, each by its text, and a strict run reports none. In a
run that is not strict only fatal faults get through a statement, a list of statements or the whole
program; a fault that gets through a run is fatal, or the run is strict. -/
theorem Program.faults_contained (settings : Settings) (program : Program) (world : World) :
    (∃ raised reported, (program.walk settings).Raises settings world raised ∧
      Accounts settings world raised reported (program.run settings world)) ∧
    (settings.strict = false → (∀ stmt : Stmt, (stmt.run settings).OnlyFatal) ∧
      (∀ body, (execBlock settings body).OnlyFatal) ∧ (program.exec settings).OnlyFatal) ∧
    ∀ fault, (program.run settings world).1 = .error (.fault fault) →
      fault.isFatal = true ∨ settings.strict = true := by
  refine ⟨?_, fun loose => ⟨fun stmt => .contain loose _ _, execBlock_onlyFatal loose,
    program.exec_onlyFatal loose⟩, fun fault stopped => ?_⟩
  · -- The raised faults are found first, and the run is known to account for them.
    obtain ⟨raised, raises⟩ :=
      (traceableRuns settings).program program (blockUses_any program.body) world
    obtain ⟨reported, account⟩ := raises.accounts
    rw [walk_step] at account
    exact ⟨raised, reported, raises, account⟩
  · -- In a strict run any fault may get through.
    cases strict : settings.strict with
    | true => exact .inr rfl
    | false => exact .inl (program.exec_onlyFatal strict world fault stopped)

/-- A variable that is not declared, in a condition within a condition: the fault is raised once,
and reported once. -/
theorem Program.faults_contained_nested :
    ∃ program : Program, ∃ raised,
      (program.walk {}).Raises {} (World.start []) raised ∧
      raised = [.undeclaredVariable "n"] ∧
      (program.run {} (World.start [])).2.console.reports.toList =
        ["Error: UndeclaredVariable: variable n is not declared"] := by
  let yes : Expr := .literal (.value (.boolean true))
  let inner : Stmt := .ifElse yes [.assign [.ofName "n"] yes] .nothing
  let program : Program := ⟨[.ifElse yes [inner] .nothing]⟩
  obtain ⟨⟨raised, reported, raises, account⟩, -⟩ := faults_contained {} program (World.start [])
  -- The run ends by itself, with one fault in its list.
  have faults : [Fault.undeclaredVariable "n"] = reported := account.faults
  have complete : raised = reported := account.complete.trans (List.append_nil _)
  refine ⟨program, raised, raises, by rw [complete, faults], ?_⟩
  rw [account.reports, ← faults]
  rfl

end Pseudocode
