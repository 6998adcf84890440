import Pseudocode.Exec.World

/-! Running statements. -/

namespace Pseudocode

/-- Names that are declared together: they share the initial value that follows the last of them,
or have none. -/
structure DeclGroup where
  /-- The names, in order. -/
  names : List Target
  /-- The shared initial value. -/
  initial : Option Expr

/-- Cut declared names into groups, given the names of the group that is open, the latest first. -/
def declGroupsFrom (names : List Target) : List Declarator → List DeclGroup
  -- Names that are left over at the end have no initial value.
  | [] => if names.isEmpty then [] else [⟨names.reverse, none⟩]
  | ⟨name, none⟩ :: rest => declGroupsFrom (name :: names) rest
  -- An initial value closes the group, and the next name opens another one.
  | ⟨name, some initial⟩ :: rest =>
    ⟨(name :: names).reverse, some initial⟩ :: declGroupsFrom [] rest

/-- Cut declared names into groups. -/
def declGroups (declarators : List Declarator) : List DeclGroup :=
  declGroupsFrom [] declarators

/-- Declare one name. -/
def declareName (settings : Settings) (typing : Typing) (initial : Option Datum)
    (name : Target) : Exec Unit := do
  -- The name is looked at before anything else, since what is no label is a defect.
  let label ← ofResult name.label
  let world ← get
  match world.store.declare label typing initial with
  -- A fault, such as a name that is taken, is got over here, so that the next names are declared.
  | .error (.fault fault) => recover settings fault
  | .error failure => throw failure
  | .ok store =>
    set { world with store := store }
    -- The event shows the value as it is kept, after it has been brought to the type.
    let value ← ofResult (liftFault (store.get label))
    note settings (.declare label typing value)

/-- Declare the names of a group. The initial value is found once, and each name stands on its own:
a fault of one does not keep the others from being declared. -/
def declareGroup (settings : Settings) (typing : Typing) (group : DeclGroup) : Exec Unit := do
  let found : Option (Option Datum) ←
    match group.initial with
    | none => pure (some none)
    | some expr =>
      -- A fault of the initial value is got over, and then none of the names is declared.
      contain settings (do return some (← ofResult (expr.eval (← get).store)).asInitial) none
  match found with
  -- There is no value to declare the names with.
  | none => return
  | some initial => group.names.forM (declareName settings typing initial)

/-- Give one variable a value. -/
def assignLabel (settings : Settings) (how : Update) (datum : Datum) (label : Label) :
    Exec Unit := do
  let world ← get
  -- An assignment that is refused leaves the world as it is.
  let store ← ofResult (world.store.assign label datum)
  set { world with store := store }
  let value ← ofResult datum.toValue
  note settings (.update how label value)

/-- Give one name a value. -/
def assignName (settings : Settings) (datum : Datum) (name : Target) : Exec Unit := do
  assignLabel settings .assign datum (← ofResult name.label)

/-- Read a line for a variable that was declared so. Only a type says how. -/
def readTyped (line : String) : Typing → Except Failure Value
  | .known type => liftFault (readInput type line)
  | .stray node =>
    -- A tree may have a node in the place of a type, which is told by its name if it has one.
    match node.name? with
    | some name => .error (.fault (.invalidConversion (.unreadable name.toText)))
    | none => malformed node

/-- Read a line into one name. -/
def scanName (settings : Settings) (name : Target) : Exec Unit := do
  let label ← ofResult name.label
  -- A label that calls nothing is noticed before a line is read for it.
  let typing ← ofResult (liftFault ((← get).store.typing label))
  let line ← nextLine
  let value ← ofResult (readTyped line typing)
  assignLabel settings .scan (.value value) label

/-- Whether the condition of a statement holds. -/
def condition (settings : Settings) (conditional : Conditional) (test : Expr) : Exec Bool := do
  let datum ← ofResult (test.eval (← get).store)
  -- The event shows what has been found, whatever its kind.
  note settings (.condition conditional datum)
  match ← ofResult datum.toValue with
  | .boolean b => return b
  | other => raise (.typeMismatch (.condition conditional other.kind))

/-- Repeat a body as long as a test holds, for a limited number of turns. A body on its way out of a
switch ends the loop too. -/
def loop (test : Exec Bool) (body : Exec Flow) : Nat → World → Except Failure Flow × World
  -- The run goes on in a real program, so that this is no end of its own.
  | 0, world => (.error .unfinished, world)
  | turns + 1, world =>
    match test world with
    | (.error failure, world) => (.error failure, world)
    | (.ok false, world) => (.ok .normal, world)
    | (.ok true, world) =>
      match body world with
      | (.error failure, world) => (.error failure, world)
      -- A loop does not stop the way out, which leads to a switch around it.
      | (.ok .exit, world) => (.ok .exit, world)
      | (.ok .normal, world) => loop test body turns world

/-- Do one step and then another, unless the first is on its way out of a switch. -/
def sequence (first : Exec Flow) (rest : Exec Flow) : Exec Flow := do
  match ← first with
  | .exit => return .exit
  | .normal => rest

/-- Try one case of a switch: when its value is that of the subject its body is run, and then the
cases that follow it unless the body ended on its way out. -/
def tryCase (subject : Datum) (value : Expr) (body rest : Exec Flow) : Exec Flow := do
  -- The values are looked at one case after the other, and only as far as they are needed.
  let candidate ← ofResult (value.eval (← get).store)
  let candidate ← ofResult candidate.toValue
  let subject ← ofResult subject.toValue
  -- Values of other kinds than the subject are no cases of it, even if none of them would match.
  if candidate.kind ≠ subject.kind then raise (.invalidCaseType candidate.kind subject.kind)
  else if candidate.same subject then
    match ← body with
    -- The way out of the body ends here, with the switch.
    | .exit => return .normal
    -- Without a way out, the cases that follow are tried too.
    | .normal => rest
  else rest

/-- What a switch is about. -/
def switchSubject (settings : Settings) (subject : Expr) : Exec Datum := do
  let datum ← ofResult (subject.eval (← get).store)
  note settings (.subject datum)
  return datum

/-- Trace the start of a statement. What is no list of statements has none that starts. -/
def noteStart (settings : Settings) : Stmt → Exec Unit
  | .noBlock _ => pure ()
  | stmt => note settings (.start stmt.kindName)

mutual

/-- Run a statement. -/
def Stmt.exec (settings : Settings) (stmt : Stmt) : Exec Flow := do
  noteStart settings stmt
  match stmt with
  | .declare typing declarators =>
    -- Each group stands on its own, so that a fault of one is got over before the next is declared.
    (declGroups declarators).forM (declareGroup settings typing)
    return .normal
  | .assign targets value =>
    -- The value is found once, and all targets are given the same one.
    let datum ← ofResult (value.eval (← get).store)
    targets.forM (assignName settings datum)
    return .normal
  | .ifElse test body otherwise =>
    if ← condition settings .ifs test then execBlock settings body
    else otherwise.exec settings
  | .repeatWhile test body =>
    loop (condition settings .whiles test) (execBlock settings body) settings.turns
  | .switch subject cases default =>
    match default with
    | none =>
      -- After the last case there is nothing left to do.
      let subject ← switchSubject settings subject
      execCases settings subject (pure .normal) cases
    | some body =>
      -- A default that does not end in a way out is refused before the subject is looked at.
      if !endsInBreak body then raise .missingBreakOnDefault
      let subject ← switchSubject settings subject
      -- A way out of the default ends with the switch, as it is the last thing done in it.
      execCases settings subject (do discard (execBlock settings body); return .normal) cases
  | .breakOut => return .exit
  | .display value =>
    -- Writing joins values that an expression alone would not join.
    let datum ← ofResult (value.evalDisplay (← get).store)
    writeLine (← ofResult datum.toValue).display
    return .normal
  | .scan names =>
    names.forM (scanName settings)
    return .normal
  | .stray defect => throw (.defect defect)
  | .noBlock node => throw (.defect (.malformed node))

/-- Run what a condition leaves to be done when it does not hold. -/
def Otherwise.exec (settings : Settings) : Otherwise → Exec Flow
  | .nothing => return .normal
  | .block body => execBlock settings body
  | .elseIf test body otherwise => do
    -- Each further condition counts as a statement of its own.
    note settings (.start "IfStmt")
    if ← condition settings .ifs test then execBlock settings body
    else otherwise.exec settings

/-- Run statements in order. A fault ends only the statement that meets it. -/
def execBlock (settings : Settings) : List Stmt → Exec Flow
  | [] => return .normal
  | stmt :: rest =>
    -- A fault is got over here, before the next statement is run.
    sequence (contain settings (stmt.exec settings) .normal) (execBlock settings rest)

/-- Go through the cases of a switch, and end with what is to be done after the last. -/
def execCases (settings : Settings) (subject : Datum) (after : Exec Flow) :
    List Case → Exec Flow
  | [] => after
  | .mk value body :: rest =>
    tryCase subject value (execBlock settings body) (execCases settings subject after rest)

end

end Pseudocode
