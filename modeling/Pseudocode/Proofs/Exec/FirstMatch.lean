import Pseudocode.Proofs.Exec.Walk

/-! Switches whose bodies end in a break: the body of the first case that has the value of the
subject is run, and no other. -/

namespace Pseudocode

/-- What the value that a case has in a store says about a subject: whether it is the same, or why
the two cannot be compared. -/
def Case.verdict (store : Store) (subject : Datum) (case : Case) : Except Failure Bool := do
  let candidate ← (← case.value.eval store).toValue
  let subject ← subject.toValue
  -- Values of different kinds are never compared, not even to be found different.
  if candidate.kind = subject.kind then return candidate.same subject
  else throw (.fault (.invalidCaseType candidate.kind subject.kind))

/-- Whether a case is passed over: its value is of the kind of the subject, but another one. -/
def Case.isPassed (store : Store) (subject : Datum) (case : Case) : Bool :=
  match case.verdict store subject with
  -- A case that fails is not passed over, since it stops the switch.
  | .ok same => !same
  | .error _ => false

/-- The body that a subject chooses in a store: that of the first case that is not passed over, or
the default when they all are. A case that cannot be compared keeps any body from being chosen. -/
def chosenBody (store : Store) (subject : Datum) (cases : List Case) (default : List Stmt) :
    Except Failure (List Stmt) :=
  match cases.find? fun case => !case.isPassed store subject with
  -- Every case has been passed over.
  | none => .ok default
  | some case => do
    let _ ← case.verdict store subject
    return case.body

/-- Run a body as the last thing that a switch does. -/
def lastBody (settings : Settings) (body : List Stmt) : Exec Flow := do
  -- However the body ends, the switch ends normally.
  let _ ← execBlock settings body
  return .normal

/-- A switch by its first match. The subject and the cases are found in the variables that there are
before the switch, and one body is run, which is empty when there is no default to be run. -/
def firstMatch (settings : Settings) (subject : Expr) (cases : List Case)
    (default : Option (List Stmt)) : Exec Flow := do
  let store := (← get).store
  note settings (.start "SwitchStmt")
  let datum ← ofResult (subject.eval store)
  note settings (.subject datum)
  lastBody settings (← ofResult (chosenBody store datum cases (default.getD [])))

/-- A step never ends by itself: it fails, or it is on its way out of a switch. -/
def Exec.Leaves (step : Exec Flow) : Prop :=
  ∀ world, (step world).1 ≠ .ok .normal

namespace Exec.Leaves

variable {settings : Settings}

/-- Two steps, where the second is left out when the first is on its way out. -/
theorem sequence {first rest : Exec Flow} (last : rest.Leaves) :
    (sequence first rest).Leaves := by
  intro world
  unfold Pseudocode.sequence
  -- The first step fails, leaves, or hands over to the second one.
  rw [Exec.bind_run]
  rcases first world with ⟨failure | flow, after⟩
  · exact fun ended => nomatch ended
  · cases flow with
    | exit => exact fun ended => nomatch ended
    | normal => exact last after

/-- A break is on its way out, and there is no fault to be got over. -/
theorem breakOut (rest : Exec Flow) :
    (Pseudocode.sequence (contain settings (Stmt.breakOut.exec settings) .normal)
      rest).Leaves := by
  intro world ended
  have left : Stmt.breakOut.exec settings world =
      (.ok .exit, world.noting settings (.start "BreakStmt")) := by
    -- A break does nothing but to leave, after its start has been traced.
    simp [Stmt.exec, noteStart, Stmt.kindName, Exec.bind_run]
  simp only [Pseudocode.sequence, Exec.bind_run, contain_run, left] at ended
  cases ended

end Exec.Leaves

/-- Statements that end in a break never end by themselves. Whatever the statements before the break
do, they are contained, so that the break is come to unless the run stops or leaves earlier. -/
theorem execBlock_leaves (settings : Settings) {body : List Stmt}
    (breaks : endsInBreak body = true) : (execBlock settings body).Leaves := by
  -- The induction is on the body, and only its last statement has to be known.
  induction body with
  | nil => cases breaks
  | cons stmt rest ih =>
    rw [execBlock]
    cases rest with
    | nil =>
      -- The last statement is the break itself.
      cases stmt with
      | breakOut => exact .breakOut _
      | _ => cases breaks
    -- The rest of the body ends in the same break.
    | cons next rest => exact .sequence (ih breaks)

/-- After a body that never ends by itself nothing else of the switch is run. -/
theorem lastBody_of_leaves {settings : Settings} {body : List Stmt}
    (leaves : (execBlock settings body).Leaves) (rest : Exec Flow) :
    (do match ← execBlock settings body with
        | .exit => return .normal
        | .normal => rest) = lastBody settings body := by
  -- The two sides are compared world by world, by how the body ends.
  funext world
  have left := leaves world
  rw [lastBody, Exec.bind_run, Exec.bind_run]
  rcases done : execBlock settings body world with ⟨failure | flow, after⟩
  · rfl
  · cases flow with
    | exit => rfl
    | normal => exact absurd (congrArg Prod.fst done) left

/-- Taking over the result of two computations in turn. -/
theorem ofResult_bind {α β : Type} (first : Except Failure α) (next : α → Except Failure β) :
    ofResult (first >>= next) = (do ofResult (next (← ofResult first)) : Exec β) := by
  -- A failure of the first computation is what both sides end with.
  cases first <;> rfl

/-- Comparing a case with the subject asks for its verdict, and changes nothing. -/
theorem matchCase_run (subject : Datum) (case : Case) (world : World) :
    matchCase subject case.value world = (case.verdict world.store subject, world) := by
  have asked : matchCase subject case.value =
      (do ofResult (case.verdict (← get).store subject) : Exec Bool) := by
    -- Both sides evaluate the case, look at the two values, and compare them in this order.
    simp only [matchCase, evaluate, Case.verdict, ofResult_bind, bind_assoc]
    congr 1; funext world
    congr 1; funext datum
    congr 1; funext candidate
    congr 1; funext subject
    -- Values of one kind are compared, and the two steps do so in the same words.
    by_cases kinds : candidate.kind = subject.kind
    · simp only [kinds, ne_eq, not_true_eq_false, if_true, if_false]
      rfl
    · simp only [kinds, ne_eq, not_false_eq_true, if_true, if_false]
      rfl
  rw [asked, Exec.bind_run, Exec.get_run]
  exact ofResult_run _ _

/-- A case is passed over when its verdict is that its value is another one. -/
theorem Case.isPassed_iff {store : Store} {subject : Datum} {case : Case} :
    case.isPassed store subject = true ↔ case.verdict store subject = .ok false := by
  unfold isPassed
  -- A verdict is a failure or one of two answers, and each of them is looked at.
  rcases case.verdict store subject with failure | _ | _ <;> simp

/-- The first case that is not passed over settles the choice, whatever cases follow it. -/
theorem chosenBody_of_split {store : Store} {subject : Datum} {before : List Case} {case : Case}
    (passed : ∀ earlier ∈ before, earlier.isPassed store subject = true)
    (stops : case.isPassed store subject = false) (later : List Case) (default : List Stmt) :
    chosenBody store subject (before ++ case :: later) default = (do
      let _ ← case.verdict store subject
      return case.body) := by
  -- The search does not stop before the case.
  have none : before.find? (fun case => !case.isPassed store subject) = none := by
    rw [List.find?_eq_none]
    intro earlier member
    simp [passed earlier member]
  simp [chosenBody, List.find?_append, none, stops]

/-- A case that is passed over has no part in the choice. -/
theorem chosenBody_of_passed {store : Store} {subject : Datum} {case : Case}
    (passed : case.isPassed store subject = true) (rest : List Case) (default : List Stmt) :
    chosenBody store subject (case :: rest) default = chosenBody store subject rest default := by
  simp [chosenBody, passed]

/-- Going through cases is running the body that the subject chooses, in the world that the first
case was looked at in, if that body ends in a break. The bodies of the other cases do not matter. -/
theorem execCases_run {settings : Settings} {subject : Datum} {cases : List Case} {world : World}
    (breaks : ∀ case, cases.find? (fun case => !case.isPassed world.store subject) = some case →
      endsInBreak case.body = true) (default : List Stmt) :
    execCases settings subject (lastBody settings default) cases world =
      (ofResult (chosenBody world.store subject cases default) >>= lastBody settings) world := by
  -- The induction is on the cases, and the world stays the same as long as they are passed over.
  induction cases with
  | nil => rfl
  | cons case rest ih =>
    obtain ⟨value, body⟩ := case
    have asked : matchCase subject value world = _ := matchCase_run subject (.mk value body) world
    rw [execCases, tryCase_eq, Exec.bind_run, asked]
    cases passed : (Case.mk value body).isPassed world.store subject with
    | true =>
      -- Nothing has been run, so that the next case is looked at in the same world.
      rw [chosenBody_of_passed passed, Case.isPassed_iff.mp passed]
      exact ih fun case found => breaks case (by simp [passed, found])
    | false =>
      -- This case is the one that the search stops at, so that its body ends in a break.
      have first := breaks (.mk value body) (by simp [passed])
      have chosen : chosenBody world.store subject (.mk value body :: rest) default = _ :=
        chosenBody_of_split (List.forall_mem_nil _) passed rest default
      rw [chosen]
      -- A case that is not passed over fails, or has the value of the subject.
      rcases verdict : (Case.mk value body).verdict world.store subject with failure | _ | _
      · rfl
      · rw [Case.isPassed_iff.mpr verdict] at passed
        cases passed
      · exact congrFun (lastBody_of_leaves (execBlock_leaves settings first) _) world

/-- A switch whose default may stand goes through its cases, and then through its default, which is
empty when there is none. -/
theorem Stmt.exec_switch_eq {settings : Settings} {default : Option (List Stmt)}
    (closes : ∀ body, default = some body → endsInBreak body = true) (subject : Expr)
    (cases : List Case) :
    (Stmt.switch subject cases default).exec settings = (do
      note settings (.start "SwitchStmt")
      let datum ← switchSubject settings subject
      execCases settings datum (lastBody settings (default.getD [])) cases) := by
  -- Without a default nothing can be wrong with it, and an empty body takes its place.
  cases default with
  | none =>
    rw [Stmt.exec]
    rfl
  | some body =>
    rw [Stmt.exec]
    -- The default ends in a break, so that the test in front is passed.
    simp [closes body rfl, noteStart, kindName, lastBody, discard, Functor.discard, map_const]

/-- The world in which the first case of a switch is looked at: its start and its subject have been
traced. -/
def World.switching (settings : Settings) (datum : Datum) (world : World) : World :=
  (world.noting settings (.start "SwitchStmt")).noting settings (.subject datum)

/-- A switch whose default may stand, and whose subject is found, runs the body that the subject
chooses, if that body ends in a break. -/
theorem Stmt.exec_switch_run {settings : Settings} {subject : Expr} {cases : List Case}
    {default : Option (List Stmt)} {world : World} {datum : Datum}
    (closes : ∀ body, default = some body → endsInBreak body = true)
    (found : subject.eval world.store = .ok datum)
    (breaks : ∀ case, cases.find? (fun case => !case.isPassed world.store datum) = some case →
      endsInBreak case.body = true) :
    (Stmt.switch subject cases default).exec settings world =
      (ofResult (chosenBody world.store datum cases (default.getD [])) >>= lastBody settings)
        (world.switching settings datum) := by
  -- Tracing the start and the subject leaves the variables as they were.
  have same : (world.switching settings datum).store = world.store := by
    simp [World.switching]
  calc
    (Stmt.switch subject cases default).exec settings world
    _ = execCases settings datum (lastBody settings (default.getD [])) cases
        (world.switching settings datum) := by
      -- Two events are traced and the subject is evaluated before the cases.
      rw [exec_switch_eq closes]
      simp [switchSubject, Exec.bind_run, found, World.switching]
    _ = _ := by
      -- The cases are looked at in a world with the variables that the switch began with.
      rw [← same] at breaks ⊢
      exact execCases_run breaks _

/-- A switch whose bodies all end in a break, with a default that does or with none, is what its
first match says: the first case that cannot be compared stops it, or the first one that has the
value of the subject has its body run, or else the default is run. Neither the cases before that
one, which are passed over, nor the cases after it have a part in it, whatever their bodies are. A
default that does not end in a break stops every switch before its subject is found. -/
theorem Stmt.exec_switch_firstMatch (settings : Settings) (subject : Expr) (cases : List Case)
    (default : Option (List Stmt)) :
    ((∀ case ∈ cases, endsInBreak case.body = true) →
      (∀ body, default = some body → endsInBreak body = true) →
        (Stmt.switch subject cases default).exec settings =
          firstMatch settings subject cases default) ∧
    (∀ world datum before case later, cases = before ++ case :: later →
      (∀ body, default = some body → endsInBreak body = true) →
      subject.eval world.store = .ok datum →
      (∀ earlier ∈ before, earlier.isPassed world.store datum = true) →
      case.isPassed world.store datum = false → endsInBreak case.body = true →
        (Stmt.switch subject cases default).exec settings world =
          match case.verdict world.store datum with
          | .error failure => (.error failure, world.switching settings datum)
          | .ok _ => lastBody settings case.body (world.switching settings datum)) ∧
    (∀ body, default = some body → endsInBreak body = false → ∀ world,
      (Stmt.switch subject cases default).exec settings world =
        (.error (.fault .missingBreakOnDefault),
          world.noting settings (.start "SwitchStmt"))) := by
  refine ⟨fun breaks closes => ?_, fun world datum before case later split closes found passed
    stops breaks => ?_, fun body present unclosed world => ?_⟩
  · -- Both sides evaluate the subject first, and fail together if that fails.
    funext world
    cases found : subject.eval world.store with
    | error failure =>
      rw [exec_switch_eq closes, firstMatch]
      simp [switchSubject, Exec.bind_run, found]
    | ok datum =>
      rw [exec_switch_run closes found fun case chosen =>
        breaks case (List.mem_of_find?_eq_some chosen), firstMatch]
      simp [Exec.bind_run, found, World.switching]
  · -- The given case is where the search stops, since all before it are passed over.
    have first : cases.find? (fun case => !case.isPassed world.store datum) = some case := by
      rw [split, List.find?_eq_some_iff_append]
      exact ⟨by simp [stops], before, later, rfl, by simpa using passed⟩
    rw [exec_switch_run closes found (by simp [first, breaks]), split,
      chosenBody_of_split passed stops]
    cases case.verdict world.store datum <;> rfl
  · -- Nothing but the start has been traced when the default is looked at.
    subst present
    simp [Stmt.exec, noteStart, Stmt.kindName, Exec.bind_run, unclosed]

/-- The second of three cases is chosen. Its body changes the variable that the subject was found
in, meets a fault that is got over, and leaves the switch from a loop before its own last break, so
that neither the value of the third case, of an undeclared variable, nor the default is come to. -/
theorem Stmt.exec_switch_firstMatch_second :
    ∃ (cases : List Case) (default : List Stmt) (world after : World),
      (∀ case ∈ cases, endsInBreak case.body = true) ∧
      (∀ body, some default = some body → endsInBreak body = true) ∧
      (Stmt.switch (.ident (.name "x")) cases (some default)).exec { turns := 1 } =
        firstMatch { turns := 1 } (.ident (.name "x")) cases (some default) ∧
      firstMatch { turns := 1 } (.ident (.name "x")) cases (some default) world =
        (.ok .normal, after) ∧
      after.console.output = #["two"] ∧
      after.console.reports = #["Error: UndeclaredVariable: variable y is not declared"] := by
  let number (n : Int32) : Expr := .literal (.value (.integer n))
  let yes : Expr := .literal (.value (.boolean true))
  let cases : List Case :=
    [.mk (number 1) [.display (number 1), .breakOut],
      .mk (number 2) [.assign [.ofName "x"] (number 1), .display (.literal (.value (.text "two"))),
        .display (.ident (.name "y")), .repeatWhile yes [.breakOut], .breakOut],
      .mk (.ident (.name "z")) [.breakOut]]
  let default : List Stmt := [.display yes, .breakOut]
  let world : World := { store := ⟨[⟨.name "x", .known .int, .integer 2⟩]⟩ }
  have breaks : ∀ case ∈ cases, endsInBreak case.body = true := by
    simp [cases, Case.body, endsInBreak]
  have closes : ∀ body, some default = some body → endsInBreak body = true := by
    rintro body ⟨⟩
    rfl
  have same := (exec_switch_firstMatch { turns := 1 } (.ident (.name "x")) cases default).1
    breaks closes
  exact ⟨cases, default, world, _, breaks, closes, same, by rw [← same]; rfl, by decide,
    by decide⟩

end Pseudocode
