import Pseudocode.Proofs.Exec.Step

/-! Runs with the worlds that they pass through, and not only the one that they leave. -/

namespace Pseudocode

/-- A step of a run, with the worlds that it passes through on its way. -/
structure Walk (α : Type) where
  /-- The step itself. -/
  step : Exec α
  /-- The worlds after the one that the step starts in, in order. -/
  path : World → List World
  /-- The last world on the way is the one that the step leaves. -/
  ends : ∀ world, (world :: path world).getLast? = some (step world).2

namespace Walk

variable {α β : Type}

/-- A step that is taken at once. -/
def atom (step : Exec α) : Walk α where
  step := step
  path world := [(step world).2]
  ends _ := rfl

/-- No step at all, only a value. -/
protected def pure (a : α) : Walk α where
  step := Pure.pure a
  path _ := []
  -- There is no world after the first one, so that this is the last.
  ends _ := rfl

/-- The way of what follows a step, if the step succeeds. -/
def onward (next : α → Walk β) : Except Failure α × World → List World
  | (.ok a, after) => (next a).path after
  | (.error _, _) => []

/-- Two steps in turn. -/
protected def bind (first : Walk α) (next : α → Walk β) : Walk β where
  step := first.step >>= fun a => (next a).step
  path world := first.path world ++ onward next (first.step world)
  ends world := by
    rw [Exec.bind_run]
    have firstEnds := first.ends world
    rcases done : first.step world with ⟨failure | a, after⟩
    -- A failure ends the way where the first step has ended.
    · simpa [onward, done] using firstEnds
    · -- The second way starts at the last world of the first.
      obtain ⟨before, split⟩ := List.getLast?_eq_some_iff.mp firstEnds
      have nextEnds := (next a).ends after
      simp only [done] at split
      simp only [onward, ← List.cons_append, split, List.append_assoc, List.singleton_append]
      rw [List.getLast?_append, nextEnds]
      rfl

/-- Walks in turn are walks. -/
instance : Monad Walk where
  pure := Walk.pure
  bind := Walk.bind

/-- The way of getting over the fault that a step has met, if it has met one. -/
def aftermath (settings : Settings) : Except Failure α × World → List World
  | (.error (.fault fault), after) => [(recover settings fault after).2]
  | _ => []

/-- A contained step. -/
def contain (settings : Settings) (walk : Walk α) (instead : α) : Walk α where
  step := Pseudocode.contain settings walk.step instead
  path world := walk.path world ++ aftermath settings (walk.step world)
  ends world := by
    -- Getting over a fault is one more world on the way, and without a fault there is none.
    rw [contain_run]
    have walkEnds := walk.ends world
    rcases done : walk.step world with ⟨failure | a, after⟩
    · cases failure with
      | fault fault =>
        simp only [aftermath, recover_run]
        split <;> simp [List.getLast?_cons]
      | defect defect => simpa [aftermath, done] using walkEnds
      -- Without a failure nothing is added to the way.
      | unfinished => simpa [aftermath, done] using walkEnds
    · simpa [aftermath, done] using walkEnds

/-- A loop of a limited number of turns. -/
def loop (test : Walk Bool) (body : Walk Flow) : Nat → Walk Flow
  | 0 => atom (throw .unfinished)
  -- The test and the body of a turn come before the turns that are left.
  | turns + 1 => do
    if ← test then
      match ← body with
      | .exit => return .exit
      | .normal => loop test body turns
    else return .normal

/-- The step of a value alone. -/
@[simp] theorem pure_step (a : α) : (pure a : Walk α).step = pure a :=
  rfl

/-- The step of two walks in turn. -/
@[simp] theorem bind_step (first : Walk α) (next : α → Walk β) :
    (first >>= next).step = first.step >>= fun a => (next a).step :=
  rfl

/-- The step of a walk that is taken at once. -/
@[simp] theorem atom_step (step : Exec α) : (atom step).step = step :=
  rfl

/-- The step of a contained walk. -/
@[simp] theorem contain_step (settings : Settings) (walk : Walk α) (instead : α) :
    (walk.contain settings instead).step = Pseudocode.contain settings walk.step instead :=
  rfl

/-- The step of walks in turn, one for each of some items. -/
@[simp] theorem forM_step (items : List α) (walk : α → Walk PUnit) :
    (forM items walk).step = forM items fun item => (walk item).step := by
  -- The items are gone through from the left, in the walk and in its step.
  induction items with
  | nil => rfl
  | cons item rest ih => simp [List.forM_cons, ih]

/-- The step of a loop. -/
@[simp] theorem loop_step (test : Walk Bool) (body : Walk Flow) (turns : Nat) :
    (loop test body turns).step = Pseudocode.loop test.step body.step turns := by
  -- Each turn tests, then runs the body, then goes on with the turns that are left.
  induction turns with
  | zero => rfl
  | succ turns ih =>
    funext world
    simp only [loop, bind_step, Exec.bind_run, Pseudocode.loop]
    rcases test.step world with ⟨failure | holds, tested⟩
    · rfl
    · cases holds with
      | false => rfl
      | true =>
        -- What the body leaves behind decides whether there is another turn.
        simp only [if_true, bind_step, Exec.bind_run]
        rcases body.step tested with ⟨failure | flow, after⟩
        · rfl
        · cases flow with
          | exit => rfl
          | normal => simp only [ih]

end Walk

/-- What an expression gives in the world of a run. -/
def evaluate (expr : Expr) : Exec Datum := do
  -- The world is looked at only once.
  ofResult (expr.eval (← get).store)

/-- Show what a display list gives. -/
def showValue (expr : Expr) : Exec Unit := do
  let datum ← ofResult (expr.evalDisplay (← get).store)
  writeLine (← ofResult datum.toValue).display

/-- Whether the value of a case is that of the subject. -/
def matchCase (subject : Datum) (value : Expr) : Exec Bool := do
  let candidate ← ofResult (← evaluate value).toValue
  let subject ← ofResult subject.toValue
  -- A mismatch of kinds stops the statement.
  if candidate.kind ≠ subject.kind then raise (.invalidCaseType candidate.kind subject.kind)
  return candidate.same subject

/-- The walk of finding the initial value that the names of a group share. -/
def initialWalk (settings : Settings) : Option Expr → Walk (Option (Option Datum))
  | none => return some none
  | some expr =>
    -- A fault of the initial value is got over, and then there is no group to declare.
    Walk.contain settings (do return some (← Walk.atom (evaluate expr)).asInitial) none

/-- The walk of declaring the names of a group. -/
def declareGroupWalk (settings : Settings) (typing : Typing) (group : DeclGroup) :
    Walk Unit := do
  match ← initialWalk settings group.initial with
  | none => return
  | some initial => group.names.forM fun name => .atom (declareName settings typing initial name)

/-- The walk of tracing the start of a statement. -/
def startWalk (settings : Settings) : Stmt → Walk Unit
  | .noBlock _ => return
  | stmt => .atom (note settings (.start stmt.kindName))

mutual

/-- The walk of running a statement. -/
def Stmt.walk (settings : Settings) (stmt : Stmt) : Walk Flow := do
  -- The start is traced before anything else is done.
  startWalk settings stmt
  match stmt with
  | .declare typing declarators =>
    (declGroups declarators).forM (declareGroupWalk settings typing)
    return .normal
  | .assign targets value =>
    let datum ← .atom (evaluate value)
    targets.forM fun target => .atom (assignName settings datum target)
    return .normal
  | .ifElse test body otherwise =>
    if ← .atom (condition settings .ifs test) then blockWalk settings body
    else otherwise.walk settings
  | .repeatWhile test body =>
    .loop (.atom (condition settings .whiles test)) (blockWalk settings body) settings.turns
  | .switch subject cases default =>
    match default with
    | none =>
      let subject ← .atom (switchSubject settings subject)
      casesWalk settings subject (return .normal) cases
    | some body =>
      -- A default that does not end in a break is refused before the subject is found.
      if !endsInBreak body then .atom (raise .missingBreakOnDefault)
      else
        let subject ← .atom (switchSubject settings subject)
        casesWalk settings subject (do let _ ← blockWalk settings body; return .normal) cases
  | .breakOut => return .exit
  | .display value =>
    .atom (showValue value)
    return .normal
  | .scan names =>
    names.forM fun name => .atom (scanName settings name)
    return .normal
  | .stray defect => .atom (throw (.defect defect))
  | .noBlock node => .atom (throw (.defect (.malformed node)))

/-- The walk of what a condition leaves to be done when it does not hold. -/
def Otherwise.walk (settings : Settings) : Otherwise → Walk Flow
  | .nothing => return .normal
  | .block body => blockWalk settings body
  | .elseIf test body otherwise => do
    -- An `ELSE IF` is traced as the condition that it is.
    .atom (note settings (.start "IfStmt"))
    if ← .atom (condition settings .ifs test) then blockWalk settings body
    else otherwise.walk settings

/-- The walk of running statements in order. -/
def blockWalk (settings : Settings) : List Stmt → Walk Flow
  | [] => return .normal
  | stmt :: rest => do
    -- Each statement is contained by itself, and a break skips the rest.
    match ← Walk.contain settings (stmt.walk settings) .normal with
    | .exit => return .exit
    | .normal => blockWalk settings rest

/-- The walk of going through the cases of a switch. -/
def casesWalk (settings : Settings) (subject : Datum) (after : Walk Flow) :
    List Case → Walk Flow
  | [] => after
  | .mk value body :: rest => do
    if ← .atom (matchCase subject value) then
      -- A break leaves the switch and no more.
      match ← blockWalk settings body with
      | .exit => return .normal
      | .normal => casesWalk settings subject after rest
    else casesWalk settings subject after rest

end

/-- The walk of running a statement of a program. -/
def Stmt.topWalk (settings : Settings) (stmt : Stmt) : Walk Unit := do
  match ← Walk.contain settings (stmt.walk settings) .normal with
  -- A break has come out of all switches.
  | .exit => .atom (recover settings .misplacedBreak)
  | .normal => return

/-- The walk of running a program. -/
def Program.walk (settings : Settings) (program : Program) : Walk Unit :=
  program.body.forM (Stmt.topWalk settings)

/-- Trying a case: its value is compared first, and its body is run only when they are the same. -/
theorem tryCase_eq (subject : Datum) (value : Expr) (body rest : Exec Flow) :
    tryCase subject value body rest = (do
      if ← matchCase subject value then
        match ← body with
        | .exit => return .normal
        | .normal => rest
      else rest) := by
  -- Both sides look at the candidate, then at the subject, then at the kinds of both.
  unfold tryCase matchCase evaluate
  simp only [bind_assoc]
  congr 1; funext world
  congr 1; funext found
  congr 1; funext candidate
  congr 1; funext subject
  by_cases kinds : candidate.kind ≠ subject.kind
  -- Values of different kinds stop the statement, before any of its bodies is looked at.
  · funext world
    simp [kinds, Exec.bind_run, Exec.map_run]
  · rw [if_neg kinds, if_neg kinds]
    exact (pure_bind _ _).symm

/-- A walk declares a group as the run does. -/
@[simp] theorem declareGroupWalk_step (settings : Settings) (typing : Typing)
    (group : DeclGroup) :
    (declareGroupWalk settings typing group).step = declareGroup settings typing group := by
  -- Whether there is an initial value decides what is looked for first.
  obtain ⟨names, initial⟩ := group
  cases initial with
  | none => simp [declareGroupWalk, initialWalk, declareGroup]
  | some expr =>
    simp only [declareGroupWalk, initialWalk, declareGroup, evaluate, Walk.bind_step,
      Walk.contain_step, Walk.atom_step, Walk.pure_step, bind_assoc]
    -- A contained initial value is found by the same step on both sides, and it alone matters next.
    congr 1
    funext found
    cases found <;> simp

/-- A walk traces the start of a statement as the run does. -/
@[simp] theorem startWalk_step (settings : Settings) (stmt : Stmt) :
    (startWalk settings stmt).step = noteStart settings stmt := by
  -- Only what is no list of statements is not traced.
  cases stmt <;> rfl

mutual

/-- A walk runs a statement as the run does. -/
@[simp] theorem Stmt.walk_step (settings : Settings) (stmt : Stmt) :
    (stmt.walk settings).step = stmt.exec settings := by
  -- After the start has been traced, each kind of statement goes its own way.
  cases stmt with
  | declare typing declarators => simp [Stmt.walk, Stmt.exec]
  | assign targets value => simp [Stmt.walk, Stmt.exec, evaluate]
  | ifElse test body otherwise =>
    have bodyStep := blockWalk_step settings body
    have otherwiseStep := otherwise.walk_step settings
    simp only [Stmt.walk, Stmt.exec, Walk.bind_step, Walk.atom_step, startWalk_step]
    -- The condition is found in one step, and only the chosen branch is walked.
    congr 1; funext _
    congr 1; funext holds
    cases holds <;> simp [bodyStep, otherwiseStep]
  | repeatWhile test body =>
    have bodyStep := blockWalk_step settings body
    simp [Stmt.walk, Stmt.exec, bodyStep]
  | switch subject cases default =>
    cases default with
    | none =>
      have casesStep := fun subject after => casesWalk_step settings subject after cases
      simp [Stmt.walk, Stmt.exec, casesStep]
    | some body =>
      have bodyStep := blockWalk_step settings body
      have casesStep := fun subject after => casesWalk_step settings subject after cases
      simp only [Stmt.walk, Stmt.exec, Walk.bind_step, startWalk_step]
      congr 1; funext _
      -- A default without a final break stops the statement before its subject is found.
      cases endsInBreak body with
      | false =>
        funext world
        simp [Exec.bind_run]
      | true => simp [casesStep, bodyStep, discard, Functor.discard, map_const]
  | breakOut => simp [Stmt.walk, Stmt.exec]
  | display value => simp [Stmt.walk, Stmt.exec, showValue]
  | scan names => simp [Stmt.walk, Stmt.exec]
  | stray defect => simp [Stmt.walk, Stmt.exec]
  | noBlock node => simp [Stmt.walk, Stmt.exec]

/-- A walk does what a condition leaves to be done as the run does. -/
@[simp] theorem Otherwise.walk_step (settings : Settings) (otherwise : Otherwise) :
    (otherwise.walk settings).step = otherwise.exec settings := by
  -- An `ELSE IF` is a condition again, with less left to be done.
  cases otherwise with
  | nothing => simp [Otherwise.walk, Otherwise.exec]
  | block body =>
    have bodyStep := blockWalk_step settings body
    simp [Otherwise.walk, Otherwise.exec, bodyStep]
  | elseIf test body otherwise =>
    have bodyStep := blockWalk_step settings body
    have otherwiseStep := otherwise.walk_step settings
    simp only [Otherwise.walk, Otherwise.exec, Walk.bind_step, Walk.atom_step]
    congr 1; funext _
    congr 1; funext holds
    cases holds <;> simp [bodyStep, otherwiseStep]

/-- A walk runs statements in order as the run does. -/
@[simp] theorem blockWalk_step (settings : Settings) (body : List Stmt) :
    (blockWalk settings body).step = execBlock settings body := by
  cases body with
  | nil => simp [blockWalk, execBlock]
  | cons stmt rest =>
    have stmtStep := stmt.walk_step settings
    have restStep := blockWalk_step settings rest
    simp only [blockWalk, execBlock, sequence, Walk.bind_step, Walk.contain_step, stmtStep]
    -- A break in the first statement leaves the rest of the list alone.
    congr 1; funext flow
    cases flow <;> simp [restStep]

/-- A walk goes through cases as the run does. -/
@[simp] theorem casesWalk_step (settings : Settings) (subject : Datum) (after : Walk Flow)
    (cases : List Case) :
    (casesWalk settings subject after cases).step =
      execCases settings subject after.step cases := by
  match cases with
  | [] => simp [casesWalk, execCases]
  | .mk value body :: rest =>
    have bodyStep := blockWalk_step settings body
    have restStep := casesWalk_step settings subject after rest
    simp only [casesWalk, execCases, tryCase_eq, Walk.bind_step, Walk.atom_step]
    -- A case that does not match passes on to the next, and so does one that runs through.
    congr 1; funext same
    cases same with
    | false => simp [restStep]
    | true =>
      simp only [if_true, Walk.bind_step, bodyStep]
      congr 1; funext flow
      cases flow <;> simp [restStep]

end

/-- A walk runs a statement of a program as the run does. -/
@[simp] theorem Stmt.topWalk_step (settings : Settings) (stmt : Stmt) :
    (stmt.topWalk settings).step = stmt.runTop settings := by
  simp only [Stmt.topWalk, Stmt.runTop, Stmt.run, Walk.bind_step, Walk.contain_step, walk_step]
  -- A break that reaches the program itself is a fault of its own.
  congr 1; funext flow
  cases flow <;> simp

/-- A walk runs a program as the run does. -/
@[simp] theorem Program.walk_step (settings : Settings) (program : Program) :
    (program.walk settings).step = program.exec settings := by
  simp [Program.walk, Program.exec]

/-- All worlds of the run of a program, from the one that it starts in to the one that it leaves. -/
def Program.history (settings : Settings) (program : Program) (world : World) : List World :=
  world :: (program.walk settings).path world

/-- The history of a run starts in its first world. -/
@[simp] theorem Program.history_head? (settings : Settings) (program : Program) (world : World) :
    (program.history settings world).head? = some world :=
  rfl

/-- The history of a run ends with the world that the run leaves, however it ends. -/
@[simp] theorem Program.history_getLast? (settings : Settings) (program : Program)
    (world : World) :
    (program.history settings world).getLast? = some (program.run settings world).2 := by
  -- The walk of a program takes the same step as its run.
  rw [history, Walk.ends, walk_step]
  rfl

end Pseudocode
