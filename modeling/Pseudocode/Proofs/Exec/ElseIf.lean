import Pseudocode.Proofs.Exec.Turns

/-! An `ELSE IF` is an abbreviation: a condition that stands alone in the block of an `ELSE` does
the same. -/

namespace Pseudocode

mutual

/-- A statement in which every `ELSE IF`, at any depth, is a condition in a block of its own. -/
def Stmt.nested : Stmt → Stmt
  | .ifElse test body otherwise => .ifElse test (nestedBlock body) otherwise.nested
  | .repeatWhile test body => .repeatWhile test (nestedBlock body)
  | .switch subject cases none => .switch subject (nestedCases cases) none
  | .switch subject cases (some body) =>
    .switch subject (nestedCases cases) (some (nestedBlock body))
  -- All other statements have no statements in them.
  | other => other

/-- What a condition leaves to be done, with a block in the place of every `ELSE IF`. -/
def Otherwise.nested : Otherwise → Otherwise
  | .nothing => .nothing
  | .block body => .block (nestedBlock body)
  | .elseIf test body otherwise =>
    -- The block holds nothing but the condition.
    .block [.ifElse test (nestedBlock body) otherwise.nested]

/-- Statements without an `ELSE IF` in any of them. -/
def nestedBlock : List Stmt → List Stmt
  | [] => []
  | stmt :: rest => stmt.nested :: nestedBlock rest

/-- Cases without an `ELSE IF` in any of them. -/
def nestedCases : List Case → List Case
  | [] => []
  | .mk value body :: rest => .mk value (nestedBlock body) :: nestedCases rest

end

/-- A program without an `ELSE IF`. -/
def Program.nested (program : Program) : Program :=
  ⟨nestedBlock program.body⟩

mutual

/-- Whether a statement has an `ELSE IF` in it, at any depth. -/
def Stmt.hasElseIf : Stmt → Bool
  | .ifElse _ body otherwise => blockHasElseIf body || otherwise.hasElseIf
  | .repeatWhile _ body => blockHasElseIf body
  | .switch _ cases none => casesHaveElseIf cases
  | .switch _ cases (some body) => casesHaveElseIf cases || blockHasElseIf body
  -- The other statements have no room for one.
  | _ => false

/-- Whether there is an `ELSE IF` in what a condition leaves to be done. -/
def Otherwise.hasElseIf : Otherwise → Bool
  | .nothing => false
  | .block body => blockHasElseIf body
  | .elseIf _ _ _ => true

/-- Whether one of some statements has an `ELSE IF` in it. -/
def blockHasElseIf : List Stmt → Bool
  | [] => false
  | stmt :: rest => stmt.hasElseIf || blockHasElseIf rest

/-- Whether one of some cases has an `ELSE IF` in it. -/
def casesHaveElseIf : List Case → Bool
  | [] => false
  | .mk _ body :: rest => blockHasElseIf body || casesHaveElseIf rest

end

mutual

/-- Nesting leaves no `ELSE IF` in a statement. -/
theorem Stmt.hasElseIf_nested (stmt : Stmt) : stmt.nested.hasElseIf = false := by
  cases stmt with
  | ifElse test body otherwise =>
    simp [Stmt.nested, Stmt.hasElseIf, blockHasElseIf_nested body, otherwise.hasElseIf_nested]
  | repeatWhile test body => simp [Stmt.nested, Stmt.hasElseIf, blockHasElseIf_nested body]
  | switch subject cases default =>
    cases default with
    -- The cases and the default are gone down into.
    | none => simp [Stmt.nested, Stmt.hasElseIf, casesHaveElseIf_nested cases]
    | some body =>
      simp [Stmt.nested, Stmt.hasElseIf, casesHaveElseIf_nested cases, blockHasElseIf_nested body]
  | declare typing declarators => rfl
  | assign targets value => rfl
  | breakOut => rfl
  | display value => rfl
  | scan names => rfl
  | stray defect => rfl
  | noBlock node => rfl

/-- Nesting leaves no `ELSE IF` in what a condition leaves to be done. -/
theorem Otherwise.hasElseIf_nested (otherwise : Otherwise) :
    otherwise.nested.hasElseIf = false := by
  cases otherwise with
  | nothing => rfl
  | block body => simp [Otherwise.nested, Otherwise.hasElseIf, blockHasElseIf_nested body]
  | elseIf test body otherwise =>
    -- The condition has moved into a block, and its own branches are nested too.
    simp [Otherwise.nested, Otherwise.hasElseIf, blockHasElseIf, Stmt.hasElseIf,
      blockHasElseIf_nested body, otherwise.hasElseIf_nested]

/-- Nesting leaves no `ELSE IF` in statements. -/
theorem blockHasElseIf_nested (body : List Stmt) : blockHasElseIf (nestedBlock body) = false := by
  cases body with
  | nil => rfl
  -- Each statement is nested on its own.
  | cons stmt rest =>
    simp [nestedBlock, blockHasElseIf, stmt.hasElseIf_nested, blockHasElseIf_nested rest]

/-- Nesting leaves no `ELSE IF` in cases. -/
theorem casesHaveElseIf_nested (cases : List Case) :
    casesHaveElseIf (nestedCases cases) = false := by
  match cases with
  | [] => rfl
  | .mk value body :: rest =>
    simp [nestedCases, casesHaveElseIf, blockHasElseIf_nested body, casesHaveElseIf_nested rest]

end

section Containing

variable {α β : Type} {settings : Settings} {instead : β}

/-- A contained step depends on nothing but what the step does. -/
theorem contain_of_run {step step' : Exec β} {world world' : World}
    (same : step' world' = step world) :
    contain settings step' instead world' = contain settings step instead world := by
  -- Only what the step does in this world is asked for.
  rw [contain_run, contain_run, same]

/-- A fault that has been got over is not there to be got over again, and one that stops the run
passes through every handler. -/
theorem contain_contain (step : Exec β) :
    contain settings (contain settings step instead) instead = contain settings step instead := by
  funext world
  rw [contain_run settings (contain settings step instead), contain_run settings step]
  rcases step world with ⟨failure | b, after⟩
  · cases failure with
    | fault fault =>
      -- Whether the fault stops the run is asked twice, and answered alike.
      by_cases stops : (fault.isFatal || settings.strict) = true
      · simp only [if_pos stops]
      · simp only [if_neg stops]
    | defect defect => rfl
    | unfinished => rfl
  · rfl

/-- Where the whole is contained, it does not matter whether its last step is contained by
itself. -/
theorem contain_bind_contain (first : Exec α) (next : α → Exec β) :
    contain settings (first >>= fun a => contain settings (next a) instead) instead =
      contain settings (first >>= next) instead := by
  funext world
  rcases done : first world with ⟨failure | a, after⟩
  · -- There is no last step after a failure.
    apply contain_of_run
    rw [Exec.bind_run, Exec.bind_run, done]
  · -- After the first step there is only the last one, which is contained once or twice.
    calc
      contain settings (first >>= fun a => contain settings (next a) instead) instead world
      _ = contain settings (contain settings (next a) instead) instead after :=
        contain_of_run (by rw [Exec.bind_run, done])
      _ = contain settings (next a) instead after := by rw [contain_contain]
      _ = contain settings (first >>= next) instead world :=
        contain_of_run (by rw [Exec.bind_run, done])

/-- Steps that are the same when contained may stand for each other at the end of what is
contained. -/
theorem contain_bind_congr {first : Exec α} {next next' : α → Exec β}
    (same : ∀ a, contain settings (next' a) instead = contain settings (next a) instead) :
    contain settings (first >>= next') instead = contain settings (first >>= next) instead := by
  -- On both sides the last step may be contained by itself.
  rw [← contain_bind_contain first next', ← contain_bind_contain first next]
  simp only [same]

/-- A step before nothing else is the step alone. -/
theorem sequence_normal (step : Exec Flow) : sequence step (return .normal) = step := by
  funext world
  simp only [sequence, Exec.bind_run]
  -- What is left behind is passed on, whatever it is.
  rcases step world with ⟨failure | flow, after⟩
  · rfl
  · cases flow <;> rfl

end Containing

/-- Statements end in a `BREAK` with and without an `ELSE IF` in them. -/
theorem endsInBreak_nestedBlock (body : List Stmt) :
    endsInBreak (nestedBlock body) = endsInBreak body := by
  -- Going from the front, only the last statement of the list is looked at.
  induction body with
  | nil => rfl
  | cons stmt rest ih =>
    cases rest with
    | nil =>
      -- A statement of another kind stays one of that kind.
      cases stmt with
      | switch subject cases default => cases default <;> rfl
      | _ => rfl
    | cons next rest =>
      simp only [endsInBreak, nestedBlock, List.getLast?_cons_cons] at ih ⊢
      exact ih

/-- An `ELSE IF` does what a condition does. -/
theorem Otherwise.exec_elseIf (settings : Settings) (test : Expr) (body : List Stmt)
    (otherwise : Otherwise) :
    (Otherwise.elseIf test body otherwise).exec settings =
      (Stmt.ifElse test body otherwise).exec settings := by
  -- Both trace the start of a condition and then find it.
  simp only [Otherwise.exec, Stmt.exec, noteStart, Stmt.kindName]

/-- A condition with branches that do the same does the same when its fault is got over. -/
theorem contain_exec_ifElse {settings : Settings} (test : Expr) {body body' : List Stmt}
    {otherwise otherwise' : Otherwise} (bodies : execBlock settings body' = execBlock settings body)
    (branches : contain settings (otherwise'.exec settings) .normal =
      contain settings (otherwise.exec settings) .normal) :
    contain settings ((Stmt.ifElse test body' otherwise').exec settings) .normal =
      contain settings ((Stmt.ifElse test body otherwise).exec settings) .normal := by
  simp only [Stmt.exec, noteStart, Stmt.kindName]
  -- What comes before the chosen branch is the same, and the branch is the last step.
  refine contain_bind_congr fun _ => contain_bind_congr fun holds => ?_
  cases holds with
  -- The other branch is compared with its fault got over.
  | false => simpa using branches
  | true => simp only [if_true, bodies]

mutual

/-- A statement does the same when its fault is got over, though the fault of an `ELSE IF` may be
got over earlier. -/
theorem Stmt.contain_exec_nested (settings : Settings) (stmt : Stmt) :
    contain settings (stmt.nested.exec settings) .normal =
      contain settings (stmt.exec settings) .normal := by
  cases stmt with
  | ifElse test body otherwise =>
    -- The branches are compared after the handler, the bodies before it.
    have bodySame := execBlock_nested settings body
    have branchSame := otherwise.contain_exec_nested settings
    exact contain_exec_ifElse test bodySame branchSame
  -- The body of a loop is the same step, and so is the loop.
  | repeatWhile test body =>
    have bodySame := execBlock_nested settings body
    simp only [Stmt.nested, Stmt.exec, noteStart, Stmt.kindName, bodySame]
  | switch subject cases default =>
    have casesSame := fun subject after => execCases_nested settings subject after cases
    cases default with
    | none => simp only [Stmt.nested, Stmt.exec, noteStart, Stmt.kindName, casesSame]
    | some body =>
      have bodySame := execBlock_nested settings body
      simp only [Stmt.nested, Stmt.exec, noteStart, Stmt.kindName, casesSame, bodySame,
        endsInBreak_nestedBlock]
  | declare typing declarators => rfl
  | assign targets value => rfl
  | breakOut => rfl
  | display value => rfl
  | scan names => rfl
  | stray defect => rfl
  | noBlock node => rfl

/-- What a condition leaves to be done is the same when its fault is got over. -/
theorem Otherwise.contain_exec_nested (settings : Settings) (otherwise : Otherwise) :
    contain settings (otherwise.nested.exec settings) .normal =
      contain settings (otherwise.exec settings) .normal := by
  cases otherwise with
  | nothing => rfl
  | block body =>
    have bodySame := execBlock_nested settings body
    simp only [Otherwise.nested, Otherwise.exec, bodySame]
  | elseIf test body otherwise =>
    have bodySame := execBlock_nested settings body
    have branchSame := otherwise.contain_exec_nested settings
    -- The block has a handler of its own, inside the one of the whole chain.
    simp only [Otherwise.nested, Otherwise.exec_elseIf]
    simp only [Otherwise.exec, execBlock, sequence_normal, contain_contain]
    exact contain_exec_ifElse test bodySame branchSame

/-- Statements in order do the same. -/
theorem execBlock_nested (settings : Settings) (body : List Stmt) :
    execBlock settings (nestedBlock body) = execBlock settings body := by
  cases body with
  | nil => rfl
  | cons stmt rest =>
    -- Every statement of a block is contained, and so is what it does.
    have stmtSame := stmt.contain_exec_nested settings
    have restSame := execBlock_nested settings rest
    simp only [nestedBlock, execBlock, stmtSame, restSame]

/-- Cases do the same. -/
theorem execCases_nested (settings : Settings) (subject : Datum) (after : Exec Flow)
    (cases : List Case) :
    execCases settings subject after (nestedCases cases) =
      execCases settings subject after cases := by
  match cases with
  | [] => rfl
  | .mk value body :: rest =>
    -- A case changes only in its body.
    have bodySame := execBlock_nested settings body
    have restSame := execCases_nested settings subject after rest
    simp only [nestedCases, execCases, bodySame, restSame]

end

/-- A program does the same. -/
theorem Program.exec_nested (settings : Settings) (program : Program) :
    program.nested.exec settings = program.exec settings := by
  obtain ⟨body⟩ := program
  simp only [Program.exec, Program.nested, List.forM_eq_forM]
  -- The statements are run one after the other, each with its fault got over.
  induction body with
  | nil => rfl
  | cons stmt rest ih =>
    have first : stmt.nested.runTop settings = stmt.runTop settings := by
      simp only [Stmt.runTop, Stmt.run, stmt.contain_exec_nested settings]
    simp only [nestedBlock, List.forM_cons, first, ih]

/-- An `ELSE IF` is only an abbreviation. Every program has a form without one, in which each stands
as a condition in a block of its own. Under all settings and in every world both forms are run
alike: they end in the same way and leave the same variables, console, faults and trace, or neither
of them ends. -/
theorem Program.elseIf_abbreviates (settings : Settings) (program : Program) (world : World) :
    blockHasElseIf program.nested.body = false ∧
    program.nested.run settings world = program.run settings world ∧
    (program.nested.Diverges settings world ↔ program.Diverges settings world) ∧
    ∀ outcome after, program.nested.EndsWith settings world outcome after ↔
      program.EndsWith settings world outcome after := by
  have same : ∀ settings, program.nested.run settings world = program.run settings world := by
    intro settings
    simp only [Program.run, program.exec_nested settings]
  -- Ending and going on for ever are about runs with some number of turns, which are all the same.
  refine ⟨blockHasElseIf_nested program.body, same settings, ?_, fun outcome after => ?_⟩
  · simp only [Program.Diverges, same]
  · simp only [Program.EndsWith, same]

-- A chain of two conditions: the second one moves into a block.
example (test : Expr) :
    (Program.mk [.ifElse test [] (.elseIf test [.breakOut] (.block [.breakOut]))]).nested =
      ⟨[.ifElse test [] (.block [.ifElse test [.breakOut] (.block [.breakOut])])]⟩ := by
  rfl

end Pseudocode
