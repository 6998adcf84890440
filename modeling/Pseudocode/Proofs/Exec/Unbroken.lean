import Pseudocode.Proofs.Eval.Faults
import Pseudocode.Proofs.Exec.Strict

/-! Misplaced breaks are faults of whole programs: no statement raises or reports one, whatever its
parts are. -/

namespace Pseudocode

/-- A result is no misplaced break. -/
def Breakless {α : Type} (result : Except Failure α) : Prop :=
  result ≠ .error (.fault .misplacedBreak)

namespace Breakless

variable {α β : Type}

/-- A value is no failure at all. -/
theorem ok (a : α) : Breakless (.ok a) := by
  intro broken
  cases broken

/-- A defect is no fault. -/
theorem defect (defect : Defect) : Breakless (.error (.defect defect) : Except Failure α) := by
  intro broken
  cases broken

/-- A loop without turns is no fault either. -/
theorem unfinished : Breakless (.error .unfinished : Except Failure α) := by
  intro broken
  cases broken

/-- Another fault. -/
theorem fault {fault : Fault} (other : fault ≠ .misplacedBreak) :
    Breakless (.error (.fault fault) : Except Failure α) := by
  intro broken
  cases broken
  -- The fault in the failure is the one that was told apart.
  exact other rfl

/-- A failure stands for itself in the place of any result. -/
theorem failed {failure : Failure} (breakless : Breakless (.error failure : Except Failure α)) :
    Breakless (.error failure : Except Failure β) := by
  intro broken
  cases broken
  -- A failure does not depend on the type of what might have come instead.
  exact breakless rfl

/-- Two computations in turn. -/
theorem bind {first : Except Failure α} {next : α → Except Failure β} (start : Breakless first)
    (rest : ∀ a, Breakless (next a)) : Breakless (first >>= next) := by
  -- What fails first fails the whole, and the second computation is not reached.
  cases first with
  | error failure => exact start.failed
  | ok a => exact rest a

/-- A computation whose result is changed. -/
theorem map {first : Except Failure α} {change : α → β} (start : Breakless first) :
    Breakless (first.map change) := by
  cases first with
  | error failure => exact start.failed
  | ok a => exact ok _

/-- A fault of values is none about the place of a statement. -/
theorem liftFault {result : Except Fault α} (ofValues : FaultsOfValues result) :
    Breakless (liftFault result) := by
  cases result with
  | error met =>
    -- Faults of values are listed one by one, and a misplaced break is not among them.
    refine fault ?_
    rintro rfl
    cases ofValues
  | ok a => exact ok a

/-- Taking a datum as a value can meet only a defect. -/
theorem toValue (datum : Datum) : Breakless datum.toValue := by
  cases datum with
  | value value => exact ok value
  | stray node => exact defect (.malformed node)

/-- Combining data meets the faults of combining values. -/
theorem combine (absentDecides : Bool) {join : Value → Value → Except Fault Value}
    (ofValues : ∀ v w, FaultsOfValues (join v w)) (a b : Datum) :
    Breakless (a.combine absentDecides join b) := by
  refine (toValue a).bind fun v => ?_
  dsimp only
  -- The second operand is left alone when a missing first one decides.
  split
  · exact liftFault (ofValues v .absent)
  · exact (toValue b).bind fun w => liftFault (ofValues v w)

/-- Asking a datum for a truth value. -/
theorem asBoolean (op : LogicOp) (a : Datum) : Breakless (a.asBoolean op) :=
  -- The operand is taken as a value, and then asked for a truth value.
  (toValue a).bind fun v => liftFault (Value.asBoolean_ofValues op v)

/-- An operator on two data. -/
theorem applyBinary (op : BinaryOp) (a b : Datum) : Breakless (a.applyBinary op b) := by
  -- An operator that is not known has a fault of its own.
  cases op with
  | unknown symbol => exact fault Fault.noConfusion
  | join op => exact combine _ (Value.join_ofValues false op) a b
  | logic op => exact (asBoolean op a).bind fun p => (asBoolean op b).bind fun q => ok _
  | compare op => exact combine _ (Value.applyBinary_ofValues fun _ => BinaryOp.noConfusion) a b
  | arith op => exact combine _ (Value.applyBinary_ofValues fun _ => BinaryOp.noConfusion) a b

/-- An operator on one datum. -/
theorem applyUnary (op : UnaryOp) (a : Datum) : Breakless (a.applyUnary op) := by
  -- The two known operators act on values, as those with two operands do.
  cases op with
  | unknown symbol => exact fault Fault.noConfusion
  | not =>
    refine (toValue a).bind fun v => liftFault ?_
    exact Value.applyUnary_ofValues (fun _ => UnaryOp.noConfusion) v
  | sign sign =>
    refine (toValue a).bind fun v => liftFault ?_
    exact Value.applyUnary_ofValues (fun _ => UnaryOp.noConfusion) v

/-- Evaluation meets no misplaced break, whatever the expression. -/
theorem eval (store : Store) (expr : Expr) : Breakless (expr.eval store) := by
  -- The induction is on the expression; each case puts its parts together with `bind`.
  induction expr with
  | literal content => exact ok content
  | ident label =>
    -- Looking up a variable can only meet one that is not declared.
    exact (liftFault (Expr.lookup_ofValues label).map).bind fun value => ok _
  | newline => exact ok _
  | unary op operand ih => exact ih.bind fun a => (applyUnary op a).bind fun value => ok _
  | binary op left right ihLeft ihRight =>
    -- Logic has an equation of its own, as it may leave its right side alone.
    cases op with
    | logic op =>
      refine ihLeft.bind fun a => (asBoolean op a).bind fun p => ?_
      split
      · exact ok _
      · exact ok _
      · -- Only where the left side does not decide is the right one evaluated.
        exact ihRight.bind fun b => (asBoolean op b).bind fun q => ok _
    | _ => exact ihLeft.bind fun a => ihRight.bind fun b => (applyBinary _ a b).bind fun _ => ok _
  | stray met => exact defect met

/-- A display list meets no misplaced break, whatever it lists. -/
theorem evalDisplay (store : Store) (expr : Expr) : Breakless (expr.evalDisplay store) := by
  -- Joins have a rule of their own here, and everything else is evaluated as usual.
  induction expr with
  | binary op left right ihLeft ihRight =>
    cases op with
    | join op =>
      refine ihLeft.bind fun a => ihRight.bind fun b => ?_
      exact (combine _ (Value.join_ofValues true op) a b).bind fun _ => ok _
    | _ => exact eval store _
  | _ => exact eval store _

/-- The value that a variable starts with is brought to its type. -/
theorem initialValue (typing : Typing) (initial : Option Datum) :
    Breakless (Store.initialValue typing initial) := by
  unfold Store.initialValue
  split
  · exact ok _
  -- A variable that is declared as something else than a type takes no value.
  · exact defect _
  · split
    · exact liftFault (Value.convert_ofValues _ _)
    · -- A node that is no value is not brought to any type.
      exact defect _

/-- Declaring a variable meets a taken label or a value that does not fit. -/
theorem startingValue (label : Label) (typing : Typing) (initial : Option Datum)
    (told : Option (Typing × Value)) :
    Breakless (Store.startingValue label typing initial told) := by
  cases told with
  -- The label is taken, which is a fault of its own.
  | some found => exact fault Fault.noConfusion
  | none => exact initialValue typing initial

/-- Assigning to a variable meets an undeclared label or a value that does not fit. -/
theorem assign (store : Store) (label : Label) (datum : Datum) :
    Breakless (store.assign label datum) := by
  unfold Store.assign
  split
  -- The label calls no variable.
  · exact fault Fault.noConfusion
  · split
    · exact defect _
    · exact defect _
    · split
      · exact ok _
      -- The value is of another kind than the variable.
      · exact fault Fault.noConfusion

/-- Reading a line for a variable meets a line that does not fit. -/
theorem readTyped (line : String) (typing : Typing) : Breakless (readTyped line typing) := by
  cases typing with
  -- The line is read as a value, or the words of the fault are about its spelling.
  | known type => exact liftFault (readInput_ofValues type line)
  | stray node =>
    simp only [Pseudocode.readTyped]
    split
    -- Where the node has the name of a type, the fault is about the line, and elsewhere a defect.
    · exact fault Fault.noConfusion
    · exact defect _

end Breakless

/-- The number of misplaced breaks that have been reported. -/
def World.misplacedBreaks (world : World) : Nat :=
  world.faults.toList.count .misplacedBreak

/-- A report of another fault is no report of a misplaced break. -/
theorem World.reporting_misplacedBreaks {fault : Fault} (other : fault ≠ .misplacedBreak)
    (settings : Settings) (world : World) :
    (world.reporting settings fault).misplacedBreaks = world.misplacedBreaks := by
  -- The report adds one fault, and it is not counted.
  simp [misplacedBreaks, other]

/-- A report of a misplaced break is one more. -/
theorem World.reporting_misplacedBreak (settings : Settings) (world : World) :
    (world.reporting settings .misplacedBreak).misplacedBreaks = world.misplacedBreaks + 1 := by
  -- The report adds one fault, and it is counted.
  simp [misplacedBreaks]

/-- A step has nothing to do with misplaced breaks: it reports none, and none is its outcome. -/
def Exec.Unbroken {α : Type} (step : Exec α) : Prop :=
  ∀ world, (step world).2.misplacedBreaks = world.misplacedBreaks ∧ Breakless (step world).1

namespace Exec.Unbroken

variable {α β : Type} {settings : Settings}

/-- A step that reports nothing. -/
theorem quiet {step : Exec α} (keeps : unreported.Keeps step)
    (breakless : ∀ world, Breakless (step world).1) : step.Unbroken := by
  intro world
  refine ⟨?_, breakless world⟩
  -- What is not reported is not counted either.
  rw [World.misplacedBreaks, (keeps world).1, World.misplacedBreaks]

/-- A value alone. -/
theorem pure (a : α) : (Pure.pure a : Exec α).Unbroken :=
  quiet (.pure a) fun _ => .ok a

/-- A look at the world. -/
theorem get : (MonadState.get : Exec World).Unbroken :=
  quiet .get fun world => .ok world

/-- A result that is taken over. -/
theorem ofResult {result : Except Failure α} (breakless : Breakless result) :
    (ofResult result).Unbroken := by
  refine quiet (.ofResult result) fun world => ?_
  rwa [ofResult_run]

/-- Another fault. -/
theorem raise {fault : Fault} (other : fault ≠ .misplacedBreak) :
    (raise fault : Exec α).Unbroken :=
  quiet (.raise fault) fun _ => .fault other

/-- An event that is traced. -/
theorem note (event : Event) : (note settings event).Unbroken := by
  refine quiet (.note event) fun world => ?_
  rw [note_run]
  exact .ok ()

/-- Two steps in turn, the second after what the first can give. -/
theorem bind {first : Exec α} {next : α → Exec β} (start : first.Unbroken)
    (rest : ∀ a, (∃ world, (first world).1 = .ok a) → (next a).Unbroken) :
    (first >>= next).Unbroken := by
  intro world
  -- The first step may have changed the world, and the second one starts from there.
  have before := start world
  rw [Exec.bind_run]
  rcases done : first world with ⟨failure | a, after⟩
  · -- The second step is not reached.
    rw [done] at before
    exact ⟨before.1, before.2.failed⟩
  · rw [done] at before
    obtain ⟨silent, breakless⟩ := rest a ⟨world, by rw [done]⟩ after
    exact ⟨silent.trans before.1, breakless⟩

/-- Getting over another fault. -/
theorem recover {fault : Fault} (other : fault ≠ .misplacedBreak) :
    (recover settings fault).Unbroken := by
  intro world
  rw [recover_run]
  -- A strict run ends with the fault, and any other reports it.
  split
  · exact ⟨rfl, .fault other⟩
  · exact ⟨world.reporting_misplacedBreaks other settings, .ok ()⟩

/-- A contained step: the fault that is got over is another one. -/
theorem contain {step : Exec α} (inside : step.Unbroken) (instead : α) :
    (contain settings step instead).Unbroken := by
  intro world
  have before := inside world
  rw [contain_run]
  rcases done : step world with ⟨failure | a, after⟩
  · rw [done] at before
    cases failure with
    | fault fault =>
      have other : fault ≠ .misplacedBreak := by
        -- The step inside would have ended with the misplaced break itself.
        rintro rfl
        exact before.2 rfl
      dsimp only
      split
      · exact before
      · exact ⟨(after.reporting_misplacedBreaks other settings).trans before.1, .ok instead⟩
    | defect defect => exact before
    -- Only faults are got over, so that the other failures stay as they are.
    | unfinished => exact before
  · rw [done] at before
    exact before

/-- An evaluation. -/
theorem evaluate (expr : Expr) : (evaluate expr).Unbroken :=
  get.bind fun world _ => ofResult (.eval world.store expr)

/-- A declaration, which gets over its own faults. -/
theorem declareName (typing : Typing) (initial : Option Datum) (name : Target) :
    (declareName settings typing initial name).Unbroken := by
  intro world
  cases name with
  -- A name that is no label is a defect of the tree.
  | stray met => exact ⟨rfl, .defect met⟩
  | named label =>
    have declared := Breakless.startingValue label typing initial (world.store.view label)
    rw [declareName_run]
    rcases answer : Store.startingValue label typing initial (world.store.view label) with
      failure | value
    · rw [answer] at declared
      cases failure with
      | fault fault =>
        -- The fault comes from the declaration, and is known to be another one.
        have other : fault ≠ .misplacedBreak := by
          rintro rfl
          exact declared rfl
        exact recover other world
      | defect met => exact ⟨rfl, .defect met⟩
      | unfinished => exact ⟨rfl, .unfinished⟩
    · -- Without a fault the world has a new variable, and no more reports.
      exact ⟨by simp [World.misplacedBreaks, World.storing], .ok ()⟩

/-- A variable that is given a value. -/
theorem assignLabel (how : Update) (datum : Datum) (label : Label) :
    (assignLabel settings how datum label).Unbroken := by
  refine quiet (.assignLabel unreported_stores how datum label) fun world => ?_
  have assigned := Breakless.assign world.store label datum
  have taken := Breakless.toValue datum
  rw [assignLabel_run]
  -- Either the store refuses the datum, or the datum is a value and is stored.
  cases answer : world.store.assign label datum with
  | error failure =>
    rw [answer] at assigned
    exact assigned.failed
  | ok store =>
    cases value : datum.toValue with
    | error failure =>
      rw [value] at taken
      exact taken.failed
    | ok value => exact .ok ()

/-- The label of a target, or a defect. -/
theorem label (name : Target) : (Pseudocode.ofResult name.label).Unbroken := by
  cases name with
  | stray met => exact ofResult (.defect met)
  | named label => exact ofResult (.ok label)

/-- A name that is assigned. -/
theorem assignName (datum : Datum) (name : Target) : (assignName settings datum name).Unbroken :=
  -- The label is looked at before anything else.
  (label name).bind fun label _ => assignLabel .assign datum label

/-- A name that is scanned. -/
theorem scanName (name : Target) : (scanName settings name).Unbroken := by
  -- Looking up the type and reading the line both come before the assignment.
  refine (label name).bind fun label _ => get.bind fun world _ => ?_
  refine (ofResult (.liftFault (Expr.lookup_ofValues label).map)).bind fun typing _ => ?_
  refine bind (quiet unreported.reading fun _ => .ok _) fun line _ => ?_
  exact (ofResult (.readTyped line typing)).bind fun value _ => assignLabel .scan _ label

/-- A condition. -/
theorem condition (conditional : Conditional) (test : Expr) :
    (condition settings conditional test).Unbroken := by
  refine get.bind fun world _ => (ofResult (.eval world.store test)).bind fun datum _ => ?_
  refine (note _).bind fun _ _ => (ofResult (.toValue datum)).bind fun value _ => ?_
  -- Only a truth value decides.
  split
  · exact pure _
  · exact raise Fault.noConfusion

/-- The subject of a switch. -/
theorem switchSubject (subject : Expr) : (switchSubject settings subject).Unbroken := by
  -- The datum is noted before it is known to be a value.
  refine get.bind fun world _ => (ofResult (.eval world.store subject)).bind fun datum _ => ?_
  exact (note _).bind fun _ _ => pure _

/-- The value of a case. -/
theorem matchCase (subject : Datum) (value : Expr) : (matchCase subject value).Unbroken := by
  refine (evaluate value).bind fun datum _ => (ofResult (.toValue datum)).bind fun candidate _ => ?_
  refine (ofResult (.toValue subject)).bind fun subject _ => ?_
  dsimp only
  -- Values of different kinds raise a fault of their own.
  split
  · exact (raise Fault.noConfusion).bind fun _ _ => pure _
  · exact pure _

/-- A display list. -/
theorem showValue (expr : Expr) : (showValue expr).Unbroken := by
  refine get.bind fun world _ => (ofResult (.evalDisplay world.store expr)).bind fun datum _ => ?_
  -- Writing changes the console only.
  refine (ofResult (.toValue datum)).bind fun value _ => ?_
  exact quiet (unreported.writing _) fun _ => .ok ()

end Exec.Unbroken

/-- Statements have nothing to do with misplaced breaks: those are about whole programs. -/
def unbrokenRuns (settings : Settings) : StmtCongruence settings settings .any where
  -- Only the outcome of one run counts, so the relation looks at one side.
  Rel walk _ := walk.step.Unbroken
  pure := .pure _
  bind := .bind
  contain inside := inside.contain _
  -- A loop that runs out of turns ends in a failure of its own.
  loop tests bodies := Walk.loop_of (fun _ walk => walk.step.Unbroken) (.pure _) .bind
    (.quiet (.throw .unfinished) fun _ => .unfinished) tests bodies settings.turns
  start _ := .note _
  evaluate _ := .evaluate _
  declareName _ _ _ := .declareName _ _ _
  assignName _ _ := .assignName _ _
  scanName _ := .scanName _
  condition _ := .condition _ _
  subject _ := .switchSubject _
  matchCase _ _ := .matchCase _ _
  showValue _ := .showValue _
  missingBreak := .raise Fault.noConfusion
  stray _ := .ofResult (.defect _)

/-- A statement whose fault is got over has nothing to do with misplaced breaks, even if it ends on
its way out. -/
theorem Stmt.run_unbroken (settings : Settings) (stmt : Stmt) :
    (stmt.run settings).Unbroken := by
  -- The statement is walked through once, and the walk is the run without the last recovery.
  have unbroken : (stmt.walk settings).step.Unbroken :=
    (unbrokenRuns settings).stmt stmt stmt.uses_any
  rw [walk_step] at unbroken
  exact unbroken.contain .normal

/-- A statement reports no misplaced break, however it ends. -/
theorem Stmt.misplacedBreaks_run {settings : Settings} {stmt : Stmt} {world after : World}
    {outcome : Except Failure Flow} (ended : stmt.run settings world = (outcome, after)) :
    after.misplacedBreaks = world.misplacedBreaks := by
  -- The count is one of the two things that are kept.
  have silent := (stmt.run_unbroken settings world).1
  rw [ended] at silent
  exact silent

end Pseudocode
