import Pseudocode.Proofs.Exec.Turns
import Pseudocode.Proofs.Store.View

/-! Runs do not depend on how variables are called: after renaming all of them, the same is read and
written, and the variables are the renamed ones. -/

namespace Pseudocode

/-- A renaming of variables: labels call the same variable after it if and only if they did
before. -/
structure Renaming where
  /-- The label in the place of another. -/
  label : Label → Label
  /-- No two variables come to be one, and none comes to be two. -/
  same : ∀ a b, (label a).same (label b) = a.same b

/-- Every injective renaming of names is a renaming of variables. -/
def Renaming.ofNames (rename : String → String) (injective : Function.Injective rename) :
    Renaming where
  label
    | .name spelling => .name (rename spelling)
    | other => other
  same a b := by
    cases a with
    | name spelling =>
      cases b with
      -- Two names have one key when they are spelled alike.
      | name spelling' => simp only [Label.same_name, injective.eq_iff]
      | float x =>
        -- A number has a key of its own, whether or not it is a whole one.
        simp only [Label.same, Label.key]
        cases x.whole? <;> rfl
      | _ => rfl
    -- Numbers have keys of their own, and may share them with whole numbers but with no name.
    | float x =>
      simp only [Label.same, Label.key]
      cases b <;> cases x.whole? <;> rfl
    | _ => cases b <;> rfl

section Renamed

variable (naming : Renaming)

/-- An expression with its variables renamed. -/
def Expr.rename : Expr → Expr
  | .ident label => .ident (naming.label label)
  | .unary op operand => .unary op operand.rename
  | .binary op left right => .binary op left.rename right.rename
  -- All other expressions have no variables in them.
  | other => other

/-- A target with its variable renamed. -/
def Target.rename : Target → Target
  | .named label => .named (naming.label label)
  | .stray defect => .stray defect

/-- What a renaming does to the parts of statements. -/
def Renaming.parts : PartMap where
  expr := Expr.rename naming
  target := Target.rename naming

/-- A statement with its variables renamed. -/
def Stmt.rename (stmt : Stmt) : Stmt :=
  stmt.mapParts naming.parts

/-- A program with its variables renamed. -/
def Program.rename (program : Program) : Program :=
  program.mapParts naming.parts

/-- A variable under its new label. -/
def Variable.rename (declared : Variable) : Variable :=
  { declared with label := naming.label declared.label }

/-- The variables under their new labels, in the same order. -/
def Store.rename (store : Store) : Store :=
  ⟨store.toList.map (Variable.rename naming)⟩

/-- The world with its variables renamed. -/
def World.rename (world : World) : World :=
  world.storing (world.store.rename naming)

end Renamed

/-- The kinds of failure. -/
inductive FailureKind where
  /-- A fault, by its kind. -/
  | fault (kind : FaultKind)
  /-- A defect, as it is. -/
  | defect (defect : Defect)
  /-- A run that has not ended. -/
  | unfinished

/-- The kind of a failure. -/
def Failure.kind : Failure → FailureKind
  | .fault cause => .fault cause.kind
  | .defect cause => .defect cause
  | .unfinished => .unfinished

/-- Two outcomes are alike: they have the same value, or they are failures of the same kind. -/
inductive Alike {α : Type} : Except Failure α → Except Failure α → Prop where
  /-- Both have the same value. -/
  | ok (a : α) : Alike (.ok a) (.ok a)
  /-- Both fail for reasons of one kind. -/
  | error {failure failure' : Failure} (same : failure'.kind = failure.kind) :
    Alike (.error failure) (.error failure')

/-- Two worlds that differ in the labels of variables and in what names them: in the words of
reports and in the trace. -/
structure World.Renamed (naming : Renaming) (world world' : World) : Prop where
  /-- The variables are the renamed ones, in the same order. -/
  store : world'.store = world.store.rename naming
  /-- The same lines are waiting. -/
  input : world'.console.input = world.console.input
  /-- As many lines have been read. -/
  linesRead : world'.console.linesRead = world.console.linesRead
  /-- The same lines have been written. -/
  output : world'.console.output = world.console.output
  /-- Faults of the same kinds have been reported, in the same order. -/
  kinds : world'.faults.map Fault.kind = world.faults.map Fault.kind

namespace Store

variable {naming : Renaming}

/-- A variable is found under its new label. -/
theorem find?_rename (store : Store) (label : Label) :
    (store.rename naming).find? (naming.label label) =
      (store.find? label).map (Variable.rename naming) := by
  simp only [find?, rename, List.find?_map]
  congr 2
  -- The labels are compared after the renaming as they were before.
  funext declared
  exact naming.same declared.label label

/-- The same is told about a variable under its new label. -/
theorem view_rename (store : Store) (label : Label) :
    (store.rename naming).view (naming.label label) = store.view label := by
  simp only [view, find?_rename, Option.map_map]
  rfl

/-- A variable is declared under its new label. -/
theorem add_rename (store : Store) (label : Label) (typing : Typing) (value : Value) :
    (store.rename naming).add (naming.label label) typing value =
      (store.add label typing value).rename naming := by
  -- The new variable is renamed like those before it.
  simp [add, rename, Variable.rename]

/-- A variable is given a value under its new label. -/
theorem set_rename (store : Store) (label : Label) (value : Value) :
    (store.rename naming).set (naming.label label) value =
      (store.set label value).rename naming := by
  simp only [set, rename, List.map_map, Store.mk.injEq]
  -- Each variable is or is not the one that is meant, before and after.
  apply List.map_congr_left
  intro declared _
  simp only [Function.comp_apply, Variable.rename, naming.same]
  split <;> rfl

end Store

namespace Alike

variable {α β : Type}

/-- An outcome is like itself. -/
theorem refl (outcome : Except Failure α) : Alike outcome outcome := by
  cases outcome with
  | error failure => exact .error rfl
  | ok a => exact .ok a

/-- Outcomes that go on alike are alike. -/
theorem bind {first first' : Except Failure α} {next next' : α → Except Failure β}
    (start : Alike first first') (rest : ∀ a, Alike (next a) (next' a)) :
    Alike (first >>= next) (first' >>= next') := by
  cases start with
  | ok a => exact rest a
  -- What fails goes nowhere, and the kind of failure is kept.
  | error same => exact .error same

end Alike

namespace Expr

variable {naming : Renaming} {store : Store}

/-- A renamed expression gives the same with the renamed variables. -/
theorem eval_rename (expr : Expr) :
    Alike (expr.eval store) ((expr.rename naming).eval (store.rename naming)) := by
  induction expr with
  | literal content => exact .refl _
  | ident label =>
    -- What is told about the label is the same, and a fault names it by its new label.
    simp only [rename, eval, Store.get_eq, Store.view_rename]
    cases store.view label with
    -- Both variables are missing.
    | none => exact .error rfl
    | some told => exact .refl _
  | newline => exact .refl _
  -- An operator is applied to what its operands give, which is the same in both.
  | unary op operand ih => exact ih.bind fun a => .refl _
  | binary op left right ihLeft ihRight =>
    cases op with
    | logic op =>
      -- The right side is looked at in both or in neither.
      refine ihLeft.bind fun a => (Alike.refl (a.asBoolean op)).bind fun p => ?_
      have decided : Alike
          (do return Datum.value (.boolean (← (← right.eval store).asBoolean op)))
          (do return Datum.value (.boolean (← (← (right.rename naming).eval
            (store.rename naming)).asBoolean op))) :=
        ihRight.bind fun b => .refl _
      cases op <;> cases p <;> first | exact .refl _ | exact decided
    | arith op => exact ihLeft.bind fun a => ihRight.bind fun b => .refl _
    | compare op => exact ihLeft.bind fun a => ihRight.bind fun b => .refl _
    | join op => exact ihLeft.bind fun a => ihRight.bind fun b => .refl _
    | unknown symbol => exact ihLeft.bind fun a => ihRight.bind fun b => .refl _
  | stray defect => exact .refl _

/-- A renamed display list gives the same with the renamed variables. -/
theorem evalDisplay_rename (expr : Expr) :
    Alike (expr.evalDisplay store)
      ((expr.rename naming).evalDisplay (store.rename naming)) := by
  -- Only joins are gone down into; everything else is an ordinary expression.
  induction expr with
  | binary op left right ihLeft ihRight =>
    cases op with
    | join op => exact ihLeft.bind fun a => ihRight.bind fun b => .refl _
    | arith op => exact eval_rename _
    | compare op => exact eval_rename _
    | logic op => exact eval_rename _
    | unknown symbol => exact eval_rename _
  | literal content => exact eval_rename _
  | ident label => exact eval_rename _
  | newline => exact eval_rename _
  | unary op operand => exact eval_rename _
  | stray defect => exact eval_rename _

end Expr

namespace World.Renamed

variable {settings : Settings} {naming : Renaming} {world world' : World}

/-- A world and the one with its variables renamed. -/
theorem rename (world : World) : world.Renamed naming (world.rename naming) :=
  -- Only the variables differ, and these are renamed.
  ⟨rfl, rfl, rfl, rfl, rfl⟩

/-- Tracing does not matter, whatever the events are. -/
theorem noting (related : world.Renamed naming world') (event event' : Event) :
    (world.noting settings event).Renamed naming (world'.noting settings event') := by
  -- The trace is none of what is compared.
  obtain ⟨store, input, linesRead, output, kinds⟩ := related
  constructor <;> simp only [World.noting_store, World.noting_console, World.noting_faults, *]

/-- Faults of one kind are reported. -/
theorem reporting (related : world.Renamed naming world') {fault fault' : Fault}
    (same : fault'.kind = fault.kind) :
    (world.reporting settings fault).Renamed naming (world'.reporting settings fault') := by
  -- A report is recorded with its kind, and the words of it are not compared.
  obtain ⟨store, input, linesRead, output, kinds⟩ := related
  constructor <;> simp only [World.reporting_store, World.reporting_console,
    World.reporting_faults, Array.map_push, *]

/-- The same line is written. -/
theorem writing (related : world.Renamed naming world') (line : String) :
    (world.writing line).Renamed naming (world'.writing line) := by
  obtain ⟨store, input, linesRead, output, kinds⟩ := related
  exact ⟨store, input, linesRead, congrArg (·.push line) output, kinds⟩

/-- The same line is read. -/
theorem reading (related : world.Renamed naming world') :
    world'.console.readLine.1 = world.console.readLine.1 ∧
      world.reading.Renamed naming world'.reading := by
  obtain ⟨store, input, linesRead, output, kinds⟩ := related
  have counted : world'.console.linesRead + 1 = world.console.linesRead + 1 := by
    rw [linesRead]
  -- Past the end of the input an empty line is read, in both worlds.
  cases waiting : world.console.input with
  | nil =>
    rw [waiting] at input
    simp only [World.reading, Console.readLine, waiting, input, true_and]
    exact ⟨store, rfl, counted, output, kinds⟩
  | cons line rest =>
    rw [waiting] at input
    simp only [World.reading, Console.readLine, waiting, input, true_and]
    exact ⟨store, rfl, counted, output, kinds⟩

/-- The variables change in both worlds. -/
theorem storing (related : world.Renamed naming world') (store : Store) :
    (world.storing store).Renamed naming (world'.storing (store.rename naming)) :=
  ⟨rfl, related.input, related.linesRead, related.output, related.kinds⟩

end World.Renamed

namespace Renaming

variable {α β : Type} {settings : Settings} {naming : Renaming}

/-- Two steps go together: from a world and a renamed one they have outcomes that are alike, and
they leave a world and a renamed one. -/
structure Together (naming : Renaming) (step step' : Exec α) : Prop where
  /-- What the steps do in a world and in a renamed one. -/
  meets : ∀ {world world' : World}, world.Renamed naming world' →
    Alike (step world).1 (step' world').1 ∧ (step world).2.Renamed naming (step' world').2

namespace Together

/-- The same value is given. -/
theorem pure (a : α) : naming.Together (Pure.pure a) (Pure.pure a) :=
  ⟨fun related => ⟨.ok a, related⟩⟩

/-- Failures of one kind are met. -/
theorem throw {failure failure' : Failure} (same : failure'.kind = failure.kind) :
    naming.Together (MonadExcept.throw failure : Exec α) (MonadExcept.throw failure') :=
  ⟨fun related => ⟨.error same, related⟩⟩

/-- Results that are alike are taken over. -/
theorem ofResult {result result' : Except Failure α} (alike : Alike result result') :
    naming.Together (ofResult result) (Pseudocode.ofResult result') := by
  cases alike with
  | ok a => exact pure a
  | error same => exact throw same

/-- Events are traced. -/
theorem note (event event' : Event) :
    naming.Together (note settings event) (Pseudocode.note settings event') := by
  constructor
  intro world world' related
  -- Nothing of what is compared has changed.
  rw [note_run, note_run]
  exact ⟨.ok (), related.noting event event'⟩

/-- A line is written. -/
theorem writeLine (line : String) :
    naming.Together (writeLine line) (Pseudocode.writeLine line) :=
  ⟨fun related => ⟨.ok (), related.writing line⟩⟩

/-- A line is read. -/
theorem nextLine : naming.Together nextLine Pseudocode.nextLine := by
  constructor
  intro world world' related
  -- The same line is given to both.
  obtain ⟨same, onward⟩ := related.reading
  rw [nextLine_run, nextLine_run, same]
  exact ⟨.ok _, onward⟩

/-- Faults of one kind stop both runs, or both report them. -/
theorem recover {fault fault' : Fault} (same : fault'.kind = fault.kind) :
    naming.Together (recover settings fault) (Pseudocode.recover settings fault') := by
  constructor
  intro world world' related
  -- The kind of a fault decides whether it is fatal.
  rw [recover_run, recover_run, Fault.isFatal, Fault.isFatal, same]
  split
  · exact ⟨.error (congrArg FailureKind.fault same), related⟩
  · exact ⟨.ok (), related.reporting same⟩

/-- Steps in turn go together when the first ones do, and the second ones with every value that the
first can give. -/
theorem bind_given {first first' : Exec α} {next next' : α → Exec β}
    (start : naming.Together first first')
    (rest : ∀ a, (∃ world, (first world).1 = .ok a) → naming.Together (next a) (next' a)) :
    naming.Together (first >>= next) (first' >>= next') := by
  constructor
  intro world world' related
  obtain ⟨alike, related'⟩ := start.meets related
  rw [Exec.bind_run, Exec.bind_run]
  rcases done : first world with ⟨outcome, after⟩
  rcases done' : first' world' with ⟨outcome', after'⟩
  simp only [done, done'] at alike related'
  -- There is a second step in both runs or in neither.
  cases alike with
  | error same => exact ⟨.error same, related'⟩
  | ok a => exact (rest a ⟨world, by rw [done]⟩).meets related'

/-- Steps in turn go together when each of them does. -/
theorem bind {first first' : Exec α} {next next' : α → Exec β}
    (start : naming.Together first first') (rest : ∀ a, naming.Together (next a) (next' a)) :
    naming.Together (first >>= next) (first' >>= next') :=
  start.bind_given fun a _ => rest a

/-- Contained steps go together when the steps do. -/
theorem contain {step step' : Exec α} (inside : naming.Together step step') (instead : α) :
    naming.Together (contain settings step instead)
      (Pseudocode.contain settings step' instead) := by
  constructor
  intro world world' related
  obtain ⟨alike, related'⟩ := inside.meets related
  rw [contain_run, contain_run]
  rcases done : step world with ⟨outcome, after⟩
  rcases done' : step' world' with ⟨outcome', after'⟩
  simp only [done, done'] at alike related'
  cases alike with
  | ok a => exact ⟨.ok a, related'⟩
  | @error failure failure' same =>
    -- Only faults are got over, and both failures are faults or neither is.
    cases failure with
    | fault fault =>
      cases failure' with
      | fault fault' =>
        have same' : fault'.kind = fault.kind := by simpa [Failure.kind] using same
        by_cases stops : (fault.kind.isFatal || settings.strict) = true
        · simp only [Fault.isFatal, same', stops, if_true]
          exact ⟨.error same, related'⟩
        · simp only [Fault.isFatal, same', stops]
          exact ⟨.ok instead, related'.reporting same'⟩
      | defect _ => simp [Failure.kind] at same
      | unfinished => simp [Failure.kind] at same
    | defect _ =>
      cases failure' with
      | fault _ => simp [Failure.kind] at same
      | defect _ => exact ⟨.error same, related'⟩
      | unfinished => simp [Failure.kind] at same
    | unfinished =>
      cases failure' with
      | fault _ => simp [Failure.kind] at same
      | defect _ => simp [Failure.kind] at same
      | unfinished => exact ⟨.error rfl, related'⟩

/-- Steps that begin with a question to the variables go together when the answers are alike. -/
theorem asking (ask ask' : Store → Except Failure α) {next next' : α → Exec β}
    (alike : ∀ store : Store, Alike (ask store) (ask' (store.rename naming)))
    (rest : ∀ a, naming.Together (next a) (next' a)) :
    naming.Together (do next (← Pseudocode.ofResult (ask (← get).store)))
      (do next' (← Pseudocode.ofResult (ask' (← get).store))) := by
  have asked : naming.Together (do Pseudocode.ofResult (ask (← get).store))
      (do Pseudocode.ofResult (ask' (← get).store)) := by
    constructor
    intro world world' related
    simp only [Exec.bind_run, Exec.get_run, ofResult_run, related.store]
    exact ⟨alike world.store, related⟩
  -- The question comes first, and both answers lead on.
  simpa only [bind_assoc] using asked.bind rest

end Together

section Steps

variable (naming : Renaming)

/-- An expression is evaluated. -/
theorem evaluate (expr : Expr) :
    naming.Together (evaluate expr) (Pseudocode.evaluate (expr.rename naming)) := by
  constructor
  intro world world' related
  -- The expression looks at the variables and at nothing else.
  simp only [Pseudocode.evaluate, Exec.bind_run, Exec.get_run, ofResult_run, related.store]
  exact ⟨expr.eval_rename, related⟩

/-- A name is declared. -/
theorem declareName (typing : Typing) (initial : Option Datum) (name : Target) :
    naming.Together (declareName settings typing initial name)
      (Pseudocode.declareName settings typing initial (name.rename naming)) := by
  cases name with
  -- What is no name is refused before the variables are looked at.
  | stray defect => exact .throw rfl
  | named label =>
    constructor
    intro world world' related
    rw [Target.rename, declareName_run, declareName_run, related.store, Store.view_rename]
    cases told : world.store.view label with
    | some found =>
      -- The label is taken in both stores, and each fault names its own.
      have same : (Fault.alreadyDeclared (naming.label label).text).kind =
          (Fault.alreadyDeclared label.text).kind := rfl
      exact (Together.recover same).meets related
    | none =>
      simp only [Store.startingValue]
      -- The label is free in both stores.
      cases Store.initialValue typing initial with
      | error failure =>
        cases failure with
        | fault fault => exact (Together.recover rfl).meets related
        | defect defect => exact ⟨.error rfl, related⟩
        | unfinished => exact ⟨.error rfl, related⟩
      | ok value =>
        dsimp only
        rw [Store.add_rename]
        exact ⟨.ok (), (related.storing _).noting _ _⟩

/-- What a variable is declared as decides what it takes, and only a fault names it. -/
theorem admittedValue (label : Label) (datum : Datum) (told : Option (Typing × Value)) :
    Alike (Store.admittedValue label datum told)
      (Store.admittedValue (naming.label label) datum told) := by
  unfold Store.admittedValue
  -- The label is used only to name the variable in a fault.
  split
  · -- No variable is called so.
    exact .error rfl
  · -- A variable is there, and only kinds are compared.
    split
    · exact .refl _
    · exact .refl _
    · split
      · exact .refl _
      · exact .error rfl

/-- A variable is given a value. -/
theorem assignLabel (how : Update) (datum : Datum) (label : Label) :
    naming.Together (assignLabel settings how datum label)
      (Pseudocode.assignLabel settings how datum (naming.label label)) := by
  constructor
  intro world world' related
  rw [assignLabel_run, assignLabel_run, Store.assign_eq, Store.assign_eq, related.store,
    Store.view_rename]
  -- What is admitted is decided by the kinds, which are the same.
  have alike := naming.admittedValue label datum (world.store.view label)
  generalize Store.admittedValue label datum (world.store.view label) = admitted at alike ⊢
  generalize Store.admittedValue (naming.label label) datum (world.store.view label) = admitted'
    at alike ⊢
  cases alike with
  | error same => exact ⟨.error same, related⟩
  | ok value =>
    -- The value is stored in both worlds, whether or not it can be traced.
    simp only [Except.map, Store.set_rename]
    cases datum.toValue with
    | error failure => exact ⟨.error rfl, related.storing _⟩
    | ok traced => exact ⟨.ok (), (related.storing _).noting _ _⟩

/-- A name is assigned. -/
theorem assignName (datum : Datum) (name : Target) :
    naming.Together (assignName settings datum name)
      (Pseudocode.assignName settings datum (name.rename naming)) := by
  cases name with
  | stray defect => exact .throw rfl
  | named label => exact naming.assignLabel .assign datum label

/-- A name is scanned. -/
theorem scanName (name : Target) :
    naming.Together (scanName settings name)
      (Pseudocode.scanName settings (name.rename naming)) := by
  cases name with
  | stray defect => exact .throw rfl
  | named label =>
    -- The type comes from the variables, the line from the console, and the value from both.
    refine Together.asking (fun store => liftFault (store.typing label))
      (fun store => liftFault (store.typing (naming.label label))) ?_ fun typing => ?_
    · intro store
      rw [Store.typing_eq, Store.typing_eq, Store.view_rename]
      cases store.view label with
      | none => exact .error rfl
      | some told => exact .refl _
    · -- The line that is read does not depend on names, and neither does its value.
      refine Together.nextLine.bind fun line => ?_
      exact (Together.ofResult (.refl _)).bind fun value =>
        naming.assignLabel .scan (.value value) label

/-- A condition is found. -/
theorem condition (conditional : Conditional) (test : Expr) :
    naming.Together (condition settings conditional test)
      (Pseudocode.condition settings conditional (test.rename naming)) := by
  refine Together.asking (fun store => test.eval store)
    (fun store => (test.rename naming).eval store) (fun store => test.eval_rename) fun datum => ?_
  refine (Together.note _ _).bind fun _ => (Together.ofResult (.refl _)).bind fun value => ?_
  -- Only a truth value decides.
  split
  · exact .pure _
  · exact .throw rfl

/-- The subject of a switch is found. -/
theorem switchSubject (subject : Expr) :
    naming.Together (switchSubject settings subject)
      (Pseudocode.switchSubject settings (subject.rename naming)) := by
  refine Together.asking (fun store => subject.eval store)
    (fun store => (subject.rename naming).eval store) (fun store => subject.eval_rename)
    fun datum => ?_
  exact (Together.note _ _).bind fun _ => .pure _

/-- The value of a case is compared. -/
theorem matchCase (subject : Datum) (value : Expr) :
    naming.Together (matchCase subject value)
      (Pseudocode.matchCase subject (value.rename naming)) := by
  refine (naming.evaluate value).bind fun datum => ?_
  refine (Together.ofResult (.refl _)).bind fun candidate =>
    (Together.ofResult (.refl _)).bind fun subject => ?_
  dsimp only
  -- The kinds are those of the values, which do not depend on names.
  split
  · exact Together.bind (.throw rfl) fun _ => .pure _
  · exact .pure _

/-- A display list is shown. -/
theorem showValue (expr : Expr) :
    naming.Together (showValue expr) (Pseudocode.showValue (expr.rename naming)) := by
  refine Together.asking (fun store => expr.evalDisplay store)
    (fun store => (expr.rename naming).evalDisplay store) (fun store => expr.evalDisplay_rename)
    fun datum => ?_
  exact (Together.ofResult (.refl _)).bind fun value => .writeLine _

/-- Loops of equally many turns go together when their tests and bodies do. -/
theorem loop {test test' : Walk Bool} {body body' : Walk Flow}
    (tests : naming.Together test.step test'.step) (bodies : naming.Together body.step body'.step)
    (turns : Nat) :
    naming.Together (Walk.loop test body turns).step (Walk.loop test' body' turns).step := by
  -- Two loops are compared turn by turn.
  apply Walk.loop_congr (fun _ walk walk' => naming.Together walk.step walk'.step)
  · exact .pure _
  · exact fun start rest => start.bind_given rest
  · exact .throw rfl
  · exact tests
  · exact bodies

/-- Statements and the renamed ones go together. -/
def translation (settings : Settings) : StmtTranslation settings settings .any naming.parts where
  -- Walks are compared by their steps, and the worlds on their way are left out.
  Rel walk walk' := naming.Together walk.step walk'.step
  pure := .pure _
  bind start rest := start.bind_given rest
  contain inside := inside.contain _
  loop tests bodies := naming.loop tests bodies settings.turns
  start _ := .note _ _
  evaluate _ := naming.evaluate _
  declareName _ _ _ := naming.declareName _ _ _
  assignName _ _ := naming.assignName _ _
  scanName _ := naming.scanName _
  condition _ := naming.condition _ _
  subject _ := naming.switchSubject _
  matchCase _ _ := naming.matchCase _ _
  showValue _ := naming.showValue _
  missingBreak := .throw rfl
  stray _ := .throw rfl

/-- A statement and the renamed one go together. -/
theorem stmt (settings : Settings) (stmt : Stmt) :
    naming.Together (stmt.exec settings) ((stmt.rename naming).exec settings) := by
  -- A statement is one of the walks that are translated.
  have related : naming.Together (stmt.walk settings).step
      ((stmt.rename naming).walk settings).step :=
    (naming.translation settings).stmt stmt stmt.uses_any
  rwa [Stmt.walk_step, Stmt.walk_step] at related

/-- A program and the renamed one go together. -/
theorem program (settings : Settings) (program : Program) :
    naming.Together (program.exec settings) ((program.rename naming).exec settings) := by
  -- A break that leaves the whole program is the same fault in both.
  have related : naming.Together (program.walk settings).step
      ((program.rename naming).walk settings).step :=
    (naming.translation settings).program (Together.recover rfl) program
      (blockUses_any program.body)
  rwa [Program.walk_step, Program.walk_step] at related

end Steps

end Renaming

/-- Only what has not ended is like something that has not ended. -/
theorem Alike.unfinished_iff {α : Type} {outcome outcome' : Except Failure α}
    (alike : Alike outcome outcome') :
    outcome' = .error .unfinished ↔ outcome = .error .unfinished := by
  cases alike with
  | ok a => simp
  | @error failure failure' same =>
    -- The three kinds of failure are told apart.
    cases failure <;> cases failure' <;> simp_all [Failure.kind]

namespace Program

/-- The renamed program ends as the program does, whatever is enough for it. -/
theorem EndsWith.rename {settings : Settings} {program : Program} {world after : World}
    {outcome : Except Failure Unit} (naming : Renaming)
    (ended : program.EndsWith settings world outcome after) :
    ∃ outcome' after',
      (program.rename naming).EndsWith settings (world.rename naming) outcome' after' ∧
        Alike outcome outcome' ∧ after.Renamed naming after' := by
  obtain ⟨finished, enough, done⟩ := ended
  -- The turns that are enough for the program are enough for the renamed one.
  have together := (naming.program (settings.withTurns enough) program).meets (.rename world)
  have here := done enough (Nat.le_refl enough)
  simp only [run, Exec.runIn] at here
  -- The two runs have as many turns, and so they end alike.
  rw [here] at together
  obtain ⟨alike, related⟩ := together
  refine ⟨_, _, endsWith_of_run rfl ?_, alike, related⟩
  intro unfinished
  exact finished (alike.unfinished_iff.mp unfinished)

/-- The renamed program goes on for ever exactly when the program does. -/
theorem diverges_rename_iff (naming : Renaming) (settings : Settings) (program : Program)
    (world : World) :
    (program.rename naming).Diverges settings (world.rename naming) ↔
      program.Diverges settings world := by
  -- With any number of turns, both have ended or neither has.
  refine forall_congr' fun turns => ?_
  exact ((naming.program (settings.withTurns turns) program).meets (.rename world)).1.unfinished_iff

/--
Runs do not depend on how variables are called.

After a renaming a program ends exactly when it did. It then reads and writes the same, reports
faults of the same kinds, ends with the same failure if any, and leaves the renamed variables, in
the same order. So does every single statement, which also leaves its block when it did.
-/
theorem naming_irrelevant (naming : Renaming) (settings : Settings) (world : World) :
    (∀ program : Program,
      ((program.rename naming).Diverges settings (world.rename naming) ↔
        program.Diverges settings world) ∧
      ∀ outcome after, program.EndsWith settings world outcome after →
        ∃ outcome' after',
          (program.rename naming).EndsWith settings (world.rename naming) outcome' after' ∧
            Alike outcome outcome' ∧ after.Renamed naming after') ∧
    ∀ stmt : Stmt,
      Alike (stmt.exec settings world).1
        ((stmt.rename naming).exec settings (world.rename naming)).1 ∧
      (stmt.exec settings world).2.Renamed naming
        ((stmt.rename naming).exec settings (world.rename naming)).2 :=
  -- For programs the number of turns is no matter, and statements are compared with the same one.
  ⟨fun program => ⟨diverges_rename_iff naming settings program world,
      fun _ _ ended => ended.rename naming⟩,
    fun stmt => (naming.stmt settings stmt).meets (.rename world)⟩

/-- Every name gets longer, and no two of them become one. -/
example : Program.rename
    (Renaming.ofNames (· ++ "_") fun a b same => by simpa using same)
    ⟨[.assign [.named (.name "a")] (.ident (.name "A"))]⟩ =
      ⟨[.assign [.named (.name "a_")] (.ident (.name "A_"))]⟩ := by
  rfl

end Program

end Pseudocode
