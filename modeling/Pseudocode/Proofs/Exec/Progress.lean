import Pseudocode.Proofs.Eval.Faults
import Pseudocode.Proofs.Exec.Turns
import Pseudocode.Proofs.Source.Sourced

/-! Programs from source text do not get stuck: unless a loop goes on for ever, a run returns or
stops at an operator that meets a variable without a value. -/

namespace Pseudocode

namespace Store

variable {store : Store} {label : Label}

/-- Every variable was declared as a type. -/
def Typed (store : Store) : Prop :=
  ∀ declared ∈ store.toList, ∃ type, declared.typing = .known type

/-- A variable that is declared as a type joins those that were. -/
theorem Typed.declare (typed : store.Typed) {type : VarType} {initial : Option Datum}
    (isValue : ∀ datum, initial = some datum → datum.IsValue) :
    Within Typed (store.declare label (.known type) initial) := by
  -- The initial value is found first, and then the variable stands after all others.
  have started : Within (fun _ => True) (initialValue (.known type) initial) := by
    cases initial with
    | none => trivial
    | some datum =>
      obtain ⟨value, rfl⟩ := isValue datum rfl
      exact .liftFault (Value.convert_ofValues type value)
  unfold Store.declare
  split
  · exact FaultKind.noConfusion
  · cases found : initialValue (.known type) initial with
    | error failure => rwa [found] at started
    | ok value =>
      intro declared member
      rcases List.mem_append.mp member with member | member
      · exact typed declared member
      · exact ⟨type, by rw [List.mem_singleton.mp member]⟩

/-- Giving a variable a value does not change what any of them was declared as. -/
theorem Typed.set (typed : store.Typed) (value : Value) : (store.set label value).Typed := by
  intro declared member
  -- Each variable is one that was there before, with or without the new value.
  obtain ⟨before, earlier, rfl⟩ := List.mem_map.mp member
  split
  · exact typed before earlier
  · exact typed before earlier

/-- A variable that is found was declared as a type. -/
theorem Typed.find? (typed : store.Typed) {found : Variable}
    (here : store.find? label = some found) : ∃ type, found.typing = .known type :=
  typed found (List.mem_of_find?_eq_some here)

/-- Assigning a value keeps to variables that were declared as types. -/
theorem Typed.assign (typed : store.Typed) (value : Value) :
    Within Typed (store.assign label (.value value)) := by
  -- The type of the variable is known, so that all that can fail is the kind of the value.
  unfold Store.assign
  split
  · exact FaultKind.noConfusion
  · rename_i found here
    obtain ⟨type, known⟩ := typed.find? here
    simp only [known]
    split
    · exact typed.set value
    · exact FaultKind.noConfusion

/-- What a declared variable was declared as is a type. -/
theorem Typed.typing (typed : store.Typed) :
    Within (fun typing => ∃ type, typing = .known type) (liftFault (store.typing label)) := by
  unfold Store.typing Store.lookup
  cases here : store.find? label with
  | none => exact FaultKind.noConfusion
  | some found => exact typed.find? here

end Store

/-- A step keeps to variables that were declared as types. It succeeds with something good, or
meets a failure that a program from source text can meet. -/
def Exec.Safe {α : Type} (good : α → Prop) (step : Exec α) : Prop :=
  ∀ world, world.store.Typed → (step world).2.store.Typed ∧ Within good (step world).1

namespace Exec.Safe

variable {α β : Type} {good : α → Prop} {good' : β → Prop} {settings : Settings}

/-- Something good is given at once. -/
theorem pure {a : α} (is : good a) : Safe good (pure a) :=
  fun _ typed => ⟨typed, is⟩

/-- Two steps in turn, where the second relies on what the first gives. -/
theorem bind {first : Exec α} {next : α → Exec β} (start : first.Safe good)
    (rest : ∀ a, good a → (next a).Safe good') : (first >>= next).Safe good' := by
  intro world typed
  obtain ⟨kept, within⟩ := start world typed
  rw [Exec.bind_run]
  -- The second step starts with variables that are still typed, and with something good.
  rcases done : first world with ⟨failure | a, after⟩
  · rw [done] at kept within
    exact ⟨kept, within⟩
  · rw [done] at kept within
    exact rest a within after kept

/-- What a step gives may be said less precisely. -/
theorem weaken {step : Exec α} (safe : step.Safe good) : step.Safe fun _ => True := by
  intro world typed
  obtain ⟨kept, within⟩ := safe world typed
  refine ⟨kept, ?_⟩
  cases done : (step world).1 with
  | error failure => rwa [done] at within
  | ok a => trivial

/-- What a safe walk gives is something that it can give. -/
theorem gives {walk : Walk α} (safe : walk.step.Safe fun _ => True) :
    walk.step.Safe walk.Gives := by
  intro world typed
  obtain ⟨kept, within⟩ := safe world typed
  refine ⟨kept, ?_⟩
  -- The world that it has started in is the witness.
  cases done : (walk.step world).1 with
  | error failure => rwa [done] at within
  | ok a => exact ⟨world, done⟩

/-- Looking at the world shows variables that were declared as types. -/
theorem get : Safe (fun world => world.store.Typed) (get : Exec World) :=
  fun _ typed => ⟨typed, typed⟩

/-- The world may be set to one whose variables were declared as types. -/
theorem set {next : World} (typed : next.store.Typed) :
    Safe (fun _ => True) (set next : Exec PUnit) :=
  fun _ _ => ⟨typed, trivial⟩

/-- A result is taken over. -/
theorem ofResult {result : Except Failure α} (within : Within good result) :
    Safe good (ofResult result) := by
  intro world typed
  rw [ofResult_run]
  exact ⟨typed, within⟩

/-- A failure that can be met is met. -/
theorem throw {failure : Failure} (known : failure.Known) :
    Safe good (MonadExcept.throw failure : Exec α) :=
  fun _ typed => ⟨typed, known⟩

/-- A name has a label. -/
theorem named {spelling : String} :
    Safe (fun _ => True) (Pseudocode.ofResult (Target.ofName spelling).label) :=
  fun _ typed => ⟨typed, trivial⟩

/-- A known fault is raised. -/
theorem raise {fault : Fault} (known : fault.Known) : Safe good (raise fault) :=
  fun _ typed => ⟨typed, known⟩

/-- An event is traced. -/
theorem note {event : Event} : Safe (fun _ => True) (note settings event) := by
  intro world typed
  rw [note_run]
  exact ⟨by simpa using typed, trivial⟩

/-- A line is written. -/
theorem writeLine {line : String} : Safe (fun _ => True) (writeLine line) :=
  fun _ typed => ⟨typed, trivial⟩

/-- A line is read. -/
theorem nextLine : Safe (fun _ => True) nextLine :=
  fun _ typed => ⟨typed, trivial⟩

/-- A known fault is got over or raised again. -/
theorem recover {fault : Fault} (known : fault.Known) :
    Safe (fun _ => True) (recover settings fault) := by
  intro world typed
  rw [recover_run]
  -- A report does not touch the variables.
  split
  · exact ⟨typed, known⟩
  · exact ⟨by simpa using typed, trivial⟩

/-- A step is contained. -/
theorem contain {step : Exec α} {instead : α} (safe : step.Safe fun _ => True) :
    Safe (fun _ => True) (contain settings step instead) := by
  intro world typed
  obtain ⟨kept, within⟩ := safe world typed
  rw [contain_run]
  rcases done : step world with ⟨failure | a, after⟩
  · rw [done] at kept within
    cases failure with
    -- What is got over is a fault, and the value that stands in for it is always good.
    | fault fault =>
      dsimp only
      split
      · exact ⟨kept, within⟩
      · exact ⟨by simpa using kept, trivial⟩
    | defect defect => exact within.elim
    | unfinished => exact ⟨kept, trivial⟩
  · rw [done] at kept
    exact ⟨kept, trivial⟩

end Exec.Safe

/-- What expressions from source text give are values. -/
theorem Parts.Gives.isValue {datum : Datum} (gives : Parts.sourced.Gives datum) :
    datum.IsValue := by
  -- Evaluation gives a value with any variables, so also with those that gave the datum.
  obtain ⟨expr, store, sourced, given⟩ := gives
  have within : Within Datum.IsValue (expr.eval store) := expr.eval_known sourced
  rwa [given] at within

section Steps

variable {settings : Settings}

/-- An expression is evaluated safely. -/
theorem evaluate_safe {expr : Expr} (sourced : expr.Sourced) :
    (evaluate expr).Safe Datum.IsValue :=
  Exec.Safe.get.bind fun _ _ => .ofResult (expr.eval_known sourced)

/-- A name is declared safely. -/
theorem declareName_safe {type : VarType} {initial : Option Datum} {spelling : String}
    (isValue : ∀ datum, initial = some datum → datum.IsValue) :
    (declareName settings (.known type) initial (.ofName spelling)).Safe fun _ => True := by
  refine Exec.Safe.named.bind fun label _ => ?_
  refine Exec.Safe.get.bind fun world typed => ?_
  have declared : Within Store.Typed (world.store.declare label (.known type) initial) :=
    typed.declare isValue
  -- A fault of the declaration is got over, and nothing else can go wrong with it.
  split
  · rename_i fault failed
    rw [failed] at declared
    exact .recover declared
  · rename_i failure _ failed
    rw [failed] at declared
    exact .throw declared
  · rename_i store done
    rw [done] at declared
    have kept : (world.storing store).store.Typed := declared
    -- The new variable is looked up for the trace: it is there, but a fault would be known too.
    refine (Exec.Safe.set kept).bind fun _ _ => ?_
    refine (Exec.Safe.ofResult (.liftFault (Expr.lookup_ofValues label).map)).bind fun value _ => ?_
    exact .note

/-- A variable is given a value safely. -/
theorem assignLabel_safe (how : Update) (value : Value) (label : Label) :
    (assignLabel settings how (.value value) label).Safe fun _ => True := by
  -- The value is stored in the variables of this very world, and then it is traced.
  refine Exec.Safe.get.bind fun world typed => ?_
  refine (Exec.Safe.ofResult (typed.assign value)).bind fun store kept => ?_
  have stored : (world.storing store).store.Typed := kept
  refine (Exec.Safe.set stored).bind fun _ _ => ?_
  have isValue : (Datum.value value).IsValue := ⟨value, rfl⟩
  exact (Exec.Safe.ofResult isValue.toValue).bind fun _ _ => .note

/-- A name is assigned safely. -/
theorem assignName_safe {datum : Datum} {spelling : String} (isValue : datum.IsValue) :
    (assignName settings datum (.ofName spelling)).Safe fun _ => True := by
  obtain ⟨value, rfl⟩ := isValue
  exact Exec.Safe.named.bind fun label _ => assignLabel_safe .assign value label

/-- A name is scanned safely. -/
theorem scanName_safe {spelling : String} :
    (scanName settings (.ofName spelling)).Safe fun _ => True := by
  -- A line is read only for a declared variable, and it is read as a value of its type.
  refine Exec.Safe.named.bind fun label _ => ?_
  refine Exec.Safe.get.bind fun world typed => ?_
  refine (Exec.Safe.ofResult typed.typing).bind fun typing known => ?_
  obtain ⟨type, rfl⟩ := known
  refine Exec.Safe.nextLine.bind fun line _ => ?_
  refine (Exec.Safe.ofResult (.liftFault (readInput_ofValues type line))).bind fun value _ => ?_
  exact assignLabel_safe .scan value label

/-- A condition is found safely. -/
theorem condition_safe {conditional : Conditional} {test : Expr} (sourced : test.Sourced) :
    (condition settings conditional test).Safe fun _ => True := by
  refine Exec.Safe.get.bind fun _ _ => ?_
  refine (Exec.Safe.ofResult (test.eval_known sourced)).bind fun datum isValue => ?_
  refine Exec.Safe.note.bind fun _ _ => ?_
  refine (Exec.Safe.ofResult isValue.toValue).bind fun value _ => ?_
  -- Only a truth value decides.
  split
  · exact .pure trivial
  · exact .raise FaultKind.noConfusion

/-- The subject of a switch is found safely. -/
theorem switchSubject_safe {subject : Expr} (sourced : subject.Sourced) :
    (switchSubject settings subject).Safe fun _ => True := by
  refine Exec.Safe.get.bind fun _ _ => ?_
  refine (Exec.Safe.ofResult (subject.eval_known sourced)).bind fun datum _ => ?_
  exact Exec.Safe.note.bind fun _ _ => .pure trivial

/-- The value of a case is compared safely. -/
theorem matchCase_safe {subject : Datum} {value : Expr} (isValue : subject.IsValue)
    (sourced : value.Sourced) : (matchCase subject value).Safe fun _ => True := by
  refine (evaluate_safe sourced).bind fun datum found => ?_
  refine (Exec.Safe.ofResult found.toValue).bind fun candidate _ => ?_
  refine (Exec.Safe.ofResult isValue.toValue).bind fun subject _ => ?_
  dsimp only
  -- Different kinds are a fault of the case; it is got over like any other.
  split
  · have raised : (raise (.invalidCaseType candidate.kind subject.kind) : Exec PUnit).Safe
        fun _ => True := .raise FaultKind.noConfusion
    exact raised.bind fun _ _ => .pure trivial
  · exact .pure trivial

/-- A display list is shown safely. -/
theorem showValue_safe {expr : Expr} (sourced : expr.Sourced) :
    (showValue expr).Safe fun _ => True := by
  refine Exec.Safe.get.bind fun _ _ => ?_
  refine (Exec.Safe.ofResult (expr.evalDisplay_known sourced)).bind fun datum isValue => ?_
  exact (Exec.Safe.ofResult isValue.toValue).bind fun _ _ => .writeLine

end Steps

/-- Runs of programs from source text are safe. -/
def safeRuns (settings : Settings) : Congruence settings settings .sourced where
  Rel walk _ := walk.step.Safe fun _ => True
  pure := .pure trivial
  bind start rest := (Exec.Safe.gives start).bind rest
  contain safe := safe.contain
  -- To run out of turns is a failure that can be met.
  loop tests bodies := Walk.loop_of (fun _ walk => walk.step.Safe fun _ => True)
    (.pure trivial) (fun start rest => (Exec.Safe.gives start).bind rest)
    (.throw trivial) tests bodies settings.turns
  start _ := .note
  evaluate sourced := (evaluate_safe sourced).weaken
  declareName known initial named := by
    obtain ⟨type, rfl⟩ := known
    obtain ⟨spelling, rfl⟩ := named
    exact declareName_safe fun datum same => (initial datum same).isValue
  assignName gives named := by
    obtain ⟨spelling, rfl⟩ := named
    exact assignName_safe gives.isValue
  scanName named := by
    obtain ⟨spelling, rfl⟩ := named
    exact scanName_safe
  condition := condition_safe
  subject := switchSubject_safe
  matchCase gives sourced := matchCase_safe gives.isValue sourced
  showValue := showValue_safe
  missingBreak := .raise FaultKind.noConfusion
  misplacedBreak := .recover FaultKind.noConfusion
  -- Source text has no place without a statement.
  stray none := none.elim

/-- Only a fatal fault gets through a step. -/
def Exec.OnlyFatal {α : Type} (step : Exec α) : Prop :=
  ∀ world fault, (step world).1 = .error (.fault fault) → fault.isFatal = true

namespace Exec.OnlyFatal

variable {α β : Type} {settings : Settings}

/-- Only a fatal fault gets through two steps in turn, when this is so of each. -/
theorem bind {first : Exec α} {next : α → Exec β} (start : first.OnlyFatal)
    (rest : ∀ a, (next a).OnlyFatal) : (first >>= next).OnlyFatal := by
  intro world fault stopped
  -- The fault that stops both is the fault of the step that has met it.
  rw [Exec.bind_run] at stopped
  rcases done : first world with ⟨failure | a, after⟩
  · simp only [done, Except.error.injEq] at stopped
    exact start world fault (by rw [done, stopped])
  · simp only [done] at stopped
    exact rest a after fault stopped

/-- Nothing gets through a step that gives a value. -/
theorem pure (a : α) : (Pure.pure a : Exec α).OnlyFatal := by
  intro world fault stopped
  cases stopped

/-- Only a fatal fault gets through a step for each item of a list, when this is so of each. -/
theorem forM {step : β → Exec Unit} (each : ∀ item, (step item).OnlyFatal) (items : List β) :
    (items.forM step).OnlyFatal := by
  induction items with
  | nil => exact pure ()
  | cons item rest ih => exact (each item).bind fun _ => ih

/-- A run that is not strict gets over every fault that is not fatal. -/
theorem recover (loose : settings.strict = false) (met : Fault) :
    (recover settings met).OnlyFatal := by
  intro world fault stopped
  -- Without strictness only a fatal fault is raised again.
  rw [recover_run, loose, Bool.or_false] at stopped
  split at stopped
  · rename_i fatal
    obtain rfl : met = fault := by simpa using stopped
    exact fatal
  · cases stopped

/-- Containment in a run that is not strict lets only fatal faults through. -/
theorem contain (loose : settings.strict = false) (step : Exec α) (instead : α) :
    (contain settings step instead).OnlyFatal := by
  intro world fault stopped
  -- A fault gets through only if it is raised again, and nothing else is a fault.
  rw [contain_run, loose] at stopped
  rcases done : step world with ⟨failure | a, after⟩
  · rw [done] at stopped
    cases failure with
    | fault met =>
      simp only [Bool.or_false] at stopped
      split at stopped
      · rename_i fatal
        obtain rfl : met = fault := by simpa using stopped
        exact fatal
      · cases stopped
    | defect defect => cases stopped
    | unfinished => cases stopped
  · rw [done] at stopped
    cases stopped

end Exec.OnlyFatal

/-- Only a fatal fault gets through a run that is not strict. -/
theorem Program.exec_onlyFatal {settings : Settings} (loose : settings.strict = false)
    (program : Program) : (program.exec settings).OnlyFatal := by
  refine Exec.OnlyFatal.forM (fun stmt => ?_) program.body
  -- Each statement is contained, and a break that has left all switches is got over.
  refine (Exec.OnlyFatal.contain loose _ _).bind fun flow => ?_
  cases flow with
  | exit => exact .recover loose _
  | normal => exact .pure ()

/-- A fatal fault of a program from source text is that of an operator without an operand. -/
theorem Fault.eq_nullOperand {fault : Fault} (known : fault.Known) (fatal : fault.isFatal = true) :
    ∃ cause, fault = .nullOperand cause := by
  -- Of the three fatal faults, two are about an operator that is not known.
  cases fault with
  | nullOperand cause => exact ⟨cause, rfl⟩
  | unknownUnary symbol => exact absurd rfl known
  | unknownBinary symbol => exact absurd rfl known
  | _ => cases fatal

/-- A run of a program from source text that ends has returned, or has met an operator without an
operand. -/
theorem Program.run_within {settings : Settings} (loose : settings.strict = false)
    {program : Program} (sourced : program.Uses .sourced) (input : List String) :
    (program.run settings (World.start input)).1 = .error .unfinished ∨
      (program.run settings (World.start input)).1 = .ok () ∨
      ∃ cause, (program.run settings (World.start input)).1 =
        .error (.fault (.nullOperand cause)) := by
  -- Safety leaves known faults, and containment leaves fatal ones.
  have safe := (safeRuns settings).program program sourced
  simp only [safeRuns, Program.walk_step] at safe
  have within := (safe (World.start input) (by simp [Store.Typed, World.start, Store.empty])).2
  have fatal := program.exec_onlyFatal loose (World.start input)
  change Within _ (program.run settings (World.start input)).1 at within
  change ∀ fault, (program.run settings (World.start input)).1 = _ → _ at fatal
  rcases ended : (program.run settings (World.start input)).1 with failure | _
  · rw [ended] at within fatal
    cases failure with
    | fault fault =>
      obtain ⟨cause, rfl⟩ := Fault.eq_nullOperand within (fatal fault rfl)
      exact .inr (.inr ⟨cause, rfl⟩)
    | defect defect => exact within.elim
    | unfinished => exact .inl rfl
  · exact .inr (.inl rfl)

/-- A program that is read from source text does not get stuck: run without strictness on an empty
store, it goes on for ever, or returns, or stops at an operator that meets a variable without a
value. -/
theorem parseProgram_progress {source : String} {program : Program}
    (read : parseProgram source = .ok program) (input : List String) (debug : Nat) :
    program.Diverges { debug := debug } (World.start input) ∨
      (∃ after, program.EndsWith { debug := debug } (World.start input) (.ok ()) after) ∨
      ∃ cause after, program.EndsWith { debug := debug } (World.start input)
        (.error (.fault (.nullOperand cause))) after := by
  rcases program.diverges_or_endsWith { debug := debug } (World.start input) with
    diverges | ⟨outcome, after, ended⟩
  · exact .inl diverges
  · -- With enough turns the run is the one that ends.
    obtain ⟨finished, enough, done⟩ := ended
    have loose : (Settings.withTurns { debug := debug } enough).strict = false := rfl
    have within := Program.run_within loose (parseProgram_sourced read) input
    rw [done enough (Nat.le_refl _)] at within
    rcases within with unfinished | rfl | ⟨cause, rfl⟩
    · exact absurd unfinished finished
    · exact .inr (.inl ⟨after, finished, enough, done⟩)
    · exact .inr (.inr ⟨cause, after, finished, enough, done⟩)

/-- A program that adds to a variable without a value is read, and so it does not get stuck. -/
theorem parseProgram_progress_null :
    ∃ program, parseProgram "BEGIN CODE\nINT n\nn = n + 1\nEND CODE" = .ok program ∧
      (program.Diverges {} (World.start []) ∨
        (∃ after, program.EndsWith {} (World.start []) (.ok ()) after) ∨
        ∃ cause after, program.EndsWith {} (World.start [])
          (.error (.fault (.nullOperand cause))) after) := by
  have read : parseProgram "BEGIN CODE\nINT n\nn = n + 1\nEND CODE" =
      .ok ⟨[.declare (.known .int) [⟨.ofName "n", none⟩],
        .assign [.ofName "n"] (.binary (.arith .add) (.ident (.name "n"))
          (.literal (.value (.ofInt 1))))]⟩ := rfl
  exact ⟨_, read, parseProgram_progress read [] 0⟩

end Pseudocode
