import Pseudocode.Proofs.Exec.Input
import Pseudocode.Proofs.Value.Reading

/-! Statements with several targets stop at the first one that fails. The targets before it have got
their values, one after the other, and the lines that were read for them are gone. Nothing else has
changed. -/

namespace Pseudocode

namespace Store

/-- The store after variables have been given values, one after the other. -/
def setAll (store : Store) (given : List (Label × Value)) : Store :=
  given.foldl (fun store pair => store.set pair.1 pair.2) store

/-- The variable of a label takes a value that is of the kind of its type. -/
def Takes (store : Store) (value : Value) (label : Label) : Prop :=
  ∃ type, store.typing? label = some (.known type) ∧ value.kind = type.kind

/-- A line is read as a value of the type of a variable. -/
def Reads (store : Store) (line : String) (label : Label) (value : Value) : Prop :=
  ∃ type, store.typing? label = some (.known type) ∧ readInput type line = .ok value

variable {store : Store} {label : Label} {value : Value} {given : List (Label × Value)}

/-- Giving variables values does not change what any is declared as. -/
theorem typing?_setAll (store : Store) (given : List (Label × Value)) :
    (store.setAll given).typing? = store.typing? := by
  -- Each step of the list sets one variable, which leaves all declarations as they are.
  induction given generalizing store with
  | nil => rfl
  | cons pair rest ih => exact (ih _).trans (typing?_set ..)

/-- What is told about a label stays as it is when values are given to others. -/
theorem view_setAll_of_apart (apart : ∀ pair ∈ given, pair.1.same label = false) :
    (store.setAll given).view label = store.view label := by
  induction given generalizing store with
  | nil => rfl
  | cons pair rest ih =>
    -- The first label is another one, and so are the rest.
    rw [List.forall_mem_cons] at apart
    calc ((store.set pair.1 pair.2).setAll rest).view label
        = (store.set pair.1 pair.2).view label := ih apart.2
      _ = store.view label := by rw [view_set, apart.1, if_neg Bool.false_ne_true]

/-- A variable holds the value that it has been given last. -/
theorem get_setAll_of_last {later : List (Label × Value)}
    (declared : (store.typing? label).isSome = true)
    (last : ∀ pair ∈ later, pair.1.same label = false) :
    (store.setAll (given ++ (label, value) :: later)).get label = .ok value := by
  -- The variable is still declared when its turn comes.
  have held : ((store.setAll given).typing? label).isSome = true := by rwa [typing?_setAll]
  obtain ⟨told, seen⟩ := Option.isSome_iff_exists.mp (by rwa [typing?, Option.isSome_map] at held)
  have split : store.setAll (given ++ (label, value) :: later) =
      ((store.setAll given).set label value).setAll later := by
    simp [setAll]
  -- After its turn only other labels are set, so that what is told about it stays.
  rw [get_eq, split, view_setAll_of_apart last, view_set, if_pos (by simp [Label.same]), seen]
  rfl

end Store

/-- How an assignment of a value to labels ends when the first of them have taken it: there are no
others, or the next one does not take it. -/
inductive AssignEnds (declared : Label → Option Typing) (value : Value) :
    List Label → List Label → Except Failure Flow → Prop where
  /-- All have taken it. -/
  | all {taken : List Label} : AssignEnds declared value taken taken (.ok .normal)
  /-- The next one calls no variable. -/
  | undeclared {taken rest : List Label} {label : Label}
    (unknown : declared label = none) :
    AssignEnds declared value (taken ++ label :: rest) taken
      (.error (.fault (.undeclaredVariable label.text)))
  /-- The next one is of another kind. -/
  | otherKind {taken rest : List Label} {label : Label} {type : VarType}
    (known : declared label = some (.known type)) (differs : value.kind ≠ type.kind) :
    AssignEnds declared value (taken ++ label :: rest) taken
      (.error (.fault (.typeMismatch (.assignment value.kind label.text type))))
  /-- The next one is declared as a node that is no type. -/
  -- Such a declaration cannot come from source text.
  | untyped {taken rest : List Label} {label : Label} {node : Node}
    (stray : declared label = some (.stray node)) :
    AssignEnds declared value (taken ++ label :: rest) taken (.error (.defect (.malformed node)))

/-- How scanning labels ends when the first of them have got values, and how many lines have been
read then: there are no others, or the next one gets no value. -/
inductive ScanEnds (declared : Label → Option Typing) (input : List String) :
    List Label → List (Label × Value) → Nat → Except Failure Flow → Prop where
  /-- All have got values. -/
  | all {given : List (Label × Value)} :
    ScanEnds declared input (given.map Prod.fst) given given.length (.ok .normal)
  /-- The next one calls no variable, and no line is read for it. -/
  | undeclared {given : List (Label × Value)} {rest : List Label} {label : Label}
    (unknown : declared label = none) :
    ScanEnds declared input (given.map Prod.fst ++ label :: rest) given given.length
      (.error (.fault (.undeclaredVariable label.text)))
  /-- The line that is read for the next one spells no value of its type. -/
  | unreadable {given : List (Label × Value)} {rest : List Label} {label : Label} {type : VarType}
    {cause : Unconvertible} (known : declared label = some (.known type))
    (fails : readInput type (lineAt input given.length) = .error (.invalidConversion cause)) :
    ScanEnds declared input (given.map Prod.fst ++ label :: rest) given (given.length + 1)
      (.error (.fault (.invalidConversion cause)))
  /-- The next one is declared as a node that is no type, and its line cannot be read either. -/
  | untyped {given : List (Label × Value)} {rest : List Label} {label : Label} {node : Node}
    {failure : Failure} (stray : declared label = some (.stray node))
    (fails : readTyped (lineAt input given.length) (.stray node) = .error failure) :
    ScanEnds declared input (given.map Prod.fst ++ label :: rest) given (given.length + 1)
      (.error failure)

namespace World

/-- The world after variables have been given values and lines have been read, with a trace of its
own. -/
def giving (given : List (Label × Value)) (count : Nat) (trace : Array Event) (world : World) :
    World :=
  { world with
    store := world.store.setAll given
    console :=
      { world.console with
        input := world.console.input.drop count
        linesRead := world.console.linesRead + count }
    trace := trace }

/-- What has become of a world in which values have been given to variables, one after the other,
and lines have been read. -/
structure Received (before : World) (given : List (Label × Value)) (count : Nat) (after : World) :
    Prop where
  /-- The values have been given in order, the lines are gone, and only the trace may have changed
  besides. -/
  inOrder : ∃ trace, after = before.giving given count trace
  /-- A variable that has been given values holds the last of them. -/
  latest : ∀ earlier label value later, given = earlier ++ (label, value) :: later →
    (∀ pair ∈ later, pair.1.same label = false) → after.store.get label = .ok value
  /-- Nothing has changed about any other label. -/
  others : ∀ label, (∀ pair ∈ given, pair.1.same label = false) →
    after.store.view label = before.store.view label

/-- Giving values and reading lines twice is doing it once with all of them. -/
theorem giving_giving (given more : List (Label × Value)) (count further : Nat)
    (trace trace' : Array Event) (world : World) :
    (world.giving given count trace).giving more further trace' =
      world.giving (given ++ more) (count + further) trace' := by
  -- Both stores set the same variables in turn, and both counts add up.
  simp [giving, Store.setAll, Nat.add_assoc]

/-- A world is as it is when nothing is given and read. -/
theorem giving_nil (world : World) : world.giving [] 0 world.trace = world :=
  rfl

/-- Tracing changes nothing but the trace. -/
theorem exists_noting_eq (settings : Settings) (event : Event) (world : World) :
    -- The event is noted or not, by the settings.
    ∃ trace, world.noting settings event = world.giving [] 0 trace := by
  unfold noting
  split
  · exact ⟨_, rfl⟩
  · exact ⟨_, world.giving_nil.symm⟩

/-- Giving variables values does not change what any is declared as. -/
@[simp] theorem giving_typing? (given : List (Label × Value)) (count : Nat) (trace : Array Event)
    (world : World) : (world.giving given count trace).store.typing? = world.store.typing? :=
  world.store.typing?_setAll given

/-- Reading takes one line. -/
theorem reading_eq (world : World) : world.reading = world.giving [] 1 world.trace := by
  rw [reading, Console.readLine_eq]
  rfl

/-- Declared variables have received what they have been given. -/
theorem received_giving {given : List (Label × Value)} {world : World}
    (declared : ∀ pair ∈ given, (world.store.typing? pair.1).isSome = true) (count : Nat)
    (trace : Array Event) : world.Received given count (world.giving given count trace) where
  -- The world has just the stated form, and the other two parts follow from it.
  inOrder := ⟨trace, rfl⟩
  latest := by
    rintro earlier label value later rfl last
    exact Store.get_setAll_of_last (declared (label, value) (by simp)) last
  others label apart := Store.view_setAll_of_apart apart

end World

section Steps

variable {settings : Settings}

/-- A line is read for a type, or not at all. -/
theorem readTyped_eq_ok {line : String} {typing : Typing} {value : Value}
    (read : readTyped line typing = .ok value) :
    ∃ type, typing = .known type ∧ readInput type line = .ok value := by
  cases typing with
  | stray node =>
    -- A node that is no type makes every line fail.
    simp only [readTyped] at read
    split at read <;> cases read
  | known type =>
    refine ⟨type, rfl, ?_⟩
    cases same : readInput type line with
    | error fault => simp [readTyped, same, liftFault] at read
    | ok held => simpa [readTyped, same, liftFault] using read

/-- A line that is not read for a type is an invalid conversion. -/
theorem readTyped_known_eq_error {line : String} {type : VarType} {failure : Failure}
    (fails : readTyped line (.known type) = .error failure) :
    ∃ cause, failure = .fault (.invalidConversion cause) ∧
      readInput type line = .error (.invalidConversion cause) := by
  have read := readInput_eq type line
  -- The words of the failure are those that an input line gets.
  cases found : (Value.text line).convert? type with
  | none =>
    rw [found] at read
    simp only [readTyped, read, liftFault, Except.error.injEq] at fails
    exact ⟨_, fails.symm, read⟩
  | some value => simp [readTyped, read, found, liftFault] at fails

/-- Names are gone through up to the first at which a step fails. Where a step that does not fail
reads some lines and gives a value to the variable of its name, those before it have been given
values and their lines have been read, and the step that fails finds the world so. -/
theorem Exec.forM_gives (step : Target → Exec Unit) (per : Nat)
    (gives : VarType → String → Value → Prop)
    (does : ∀ label world,
      (∃ type value trace, world.store.typing? label = some (.known type) ∧
        gives type (lineAt world.console.input 0) value ∧
        step (.named label) world = (.ok (), world.giving [(label, value)] per trace)) ∨
      ∃ failure after, step (.named label) world = (.error failure, after))
    (labels : List Label) (world : World) :
    ∃ given trace,
      (∀ place label value, given[place]? = some (label, value) →
        ∃ type, world.store.typing? label = some (.known type) ∧
          gives type (lineAt world.console.input (per * place)) value) ∧
      (labels = given.map Prod.fst ∧ (labels.map .named).forM step world =
          (.ok (), world.giving given (per * given.length) trace) ∨
        ∃ label rest failure after, labels = given.map Prod.fst ++ label :: rest ∧
          step (.named label) (world.giving given (per * given.length) trace) =
            (.error failure, after) ∧
          (labels.map .named).forM step world = (.error failure, after)) := by
  -- The induction is on the labels, with the world as it has become.
  induction labels generalizing world with
  | nil => exact ⟨[], world.trace, by simp, .inl ⟨rfl, by simp [World.giving_nil]⟩⟩
  | cons label rest ih =>
    simp only [List.map_cons, List.forM_eq_forM, List.forM_cons, Exec.bind_run] at ih ⊢
    rcases does label world with ⟨type, value, trace, known, given, run⟩ | ⟨failure, after, fails⟩
    · -- The first step succeeds: its name and its line come before those of the others.
      obtain ⟨more, trace', received, ends⟩ := ih (world.giving [(label, value)] per trace)
      have place_succ : ∀ place, lineAt (world.console.input.drop per) (per * place) =
          lineAt world.console.input (per * (place + 1)) := by
        intro place
        rw [lineAt_drop, Nat.mul_succ, Nat.add_comm]
      have length : per * ((label, value) :: more).length = per + per * more.length := by
        rw [List.length_cons, Nat.mul_succ, Nat.add_comm]
      rw [World.giving_giving, List.singleton_append, ← length] at ends
      rw [run]
      refine ⟨(label, value) :: more, trace', ?_, ?_⟩
      · -- The place of a name moves by one, and that of its line by what the first step has read.
        rintro (_ | place) other held here
        · cases here
          exact ⟨type, known, given⟩
        · obtain ⟨type', known', given'⟩ := received place other held here
          refine ⟨type', ?_, by rw [← place_succ]; exact given'⟩
          rwa [World.giving_typing?] at known'
      -- What the others end with is what all end with.
      · rcases ends with ⟨all, run'⟩ | ⟨next, later, failure, after, split, fails, run'⟩
        · exact .inl ⟨by rw [List.map_cons, all], run'⟩
        · exact .inr ⟨next, later, failure, after, by rw [split]; rfl, fails, run'⟩
    · -- The first step fails, and then nothing has been given to any.
      rw [fails]
      refine ⟨[], world.trace, by simp, .inr ⟨label, rest, failure, after, rfl, ?_, rfl⟩⟩
      simpa [World.giving_nil] using fails

/-- A variable takes a value of its kind. -/
theorem assignLabel_fits (how : Update) {value : Value} {label : Label} {world : World}
    {type : VarType} (known : world.store.typing? label = some (.known type))
    (fits : value.kind = type.kind) :
    ∃ trace, assignLabel settings how (.value value) label world =
      (.ok (), world.giving [(label, value)] 0 trace) := by
  obtain ⟨told, seen, typing⟩ := Option.map_eq_some_iff.mp known
  -- The event in the trace speaks of the value that has been given.
  obtain ⟨trace, noted⟩ := World.exists_noting_eq settings (.update how label value)
    (world.storing (world.store.set label value))
  refine ⟨trace, ?_⟩
  simp only [assignLabel_run, Store.assign_eq, seen, Store.admittedValue, typing, if_pos fits,
    Except.map, Datum.toValue, noted]
  rfl

/-- A label is given a value when it calls a variable of its kind. Otherwise nothing changes, and an
assignment ends so wherever the label stands. -/
theorem assignLabel_ends (how : Update) (value : Value) (label : Label) (world : World) :
    (∃ type trace, world.store.typing? label = some (.known type) ∧ value.kind = type.kind ∧
      assignLabel settings how (.value value) label world =
        (.ok (), world.giving [(label, value)] 0 trace)) ∨
    ∃ failure, assignLabel settings how (.value value) label world = (.error failure, world) ∧
      ∀ taken rest,
        AssignEnds world.store.typing? value (taken ++ label :: rest) taken (.error failure) := by
  cases declared : world.store.typing? label with
  -- The store is looked at once, and what it tells about the label decides.
  | none =>
    have unseen := Option.map_eq_none_iff.mp declared
    refine .inr ⟨.fault (.undeclaredVariable label.text), ?_,
      fun taken rest => .undeclared declared⟩
    rw [assignLabel_run, Store.assign_eq, unseen]
    rfl
  | some typing =>
    obtain ⟨told, seen, same⟩ := Option.map_eq_some_iff.mp declared
    cases typing with
    | stray node =>
      refine .inr ⟨.defect (.malformed node), ?_, fun taken rest => .untyped declared⟩
      -- A place without a type takes nothing, but this is a defect and no fault.
      simp only [assignLabel_run, Store.assign_eq, seen, Store.admittedValue, same]
      rfl
    | known type =>
      by_cases fits : value.kind = type.kind
      · obtain ⟨trace, run⟩ := assignLabel_fits how declared fits
        exact .inl ⟨type, trace, rfl, fits, run⟩
      · refine .inr ⟨.fault (.typeMismatch (.assignment value.kind label.text type)), ?_,
          fun taken rest => .otherKind declared fits⟩
        simp only [assignLabel_run, Store.assign_eq, seen, Store.admittedValue, same, if_neg fits]
        rfl

/-- A label is given what the next line is read as when it calls a variable of whose type this is a
value. Otherwise no variable changes, and a scan ends so wherever the label stands, if the line is
the one at its place. -/
theorem scanName_ends (label : Label) (world : World) :
    (∃ type value trace, world.store.typing? label = some (.known type) ∧
      readInput type (lineAt world.console.input 0) = .ok value ∧
      scanName settings (.named label) world =
        (.ok (), world.giving [(label, value)] 1 trace)) ∨
    ∃ failure count, scanName settings (.named label) world =
        (.error failure, world.giving [] count world.trace) ∧
      ∀ given rest input, lineAt input given.length = lineAt world.console.input 0 →
        ScanEnds world.store.typing? input (given.map Prod.fst ++ label :: rest) given
          (given.length + count) (.error failure) := by
  -- The type of the label comes first, then the line, then the value.
  simp only [scanName, Target.label, Exec.bind_run, ofResult_run, Exec.get_run, Store.typing_eq]
  cases declared : world.store.typing? label with
  | none =>
    -- No line has been read when the label turns out to call nothing.
    have unseen := Option.map_eq_none_iff.mp declared
    simp only [unseen]
    exact .inr ⟨_, 0, rfl, fun given rest input _ => .undeclared declared⟩
  | some typing =>
    obtain ⟨told, seen, same⟩ := Option.map_eq_some_iff.mp declared
    simp only [seen, same, liftFault, nextLine_run, Console.readLine_eq, World.reading_eq]
    cases read : readTyped (lineAt world.console.input 0) typing with
    | ok value =>
      -- What is read is of the kind of the variable, so that the variable takes it.
      obtain ⟨type, rfl, spelled⟩ := readTyped_eq_ok read
      have known : (world.giving [] 1 world.trace).store.typing? label = some (.known type) := by
        rw [World.giving_typing?, declared]
      obtain ⟨trace, run⟩ := assignLabel_fits .scan known (readInput_kind spelled)
      rw [World.giving_giving] at run
      exact .inl ⟨type, value, trace, rfl, spelled, run⟩
    | error failure =>
      refine .inr ⟨failure, 1, rfl, fun given rest input line => ?_⟩
      -- Only a type says how a line is read.
      cases typing with
      | stray node => exact .untyped declared (line ▸ read)
      | known type =>
        obtain ⟨invalid, rfl, spelled⟩ := readTyped_known_eq_error read
        exact .unreadable declared (line ▸ spelled)

variable {world : World} {failure : Failure}

/-- An assignment ends when its expression fails. -/
theorem Stmt.exec_assign_fails (settings : Settings) (targets : List Target) {expr : Expr}
    (fails : expr.eval world.store = .error failure) :
    ∃ trace, (Stmt.assign targets expr).exec settings world =
      (.error failure, world.giving [] 0 trace) := by
  -- Only the start of the statement is traced before its expression is evaluated.
  obtain ⟨trace, noted⟩ := World.exists_noting_eq settings (.start "Assign") world
  refine ⟨trace, ?_⟩
  rw [← noted]
  simp only [exec, noteStart, kindName, Exec.bind_run, note_run, Exec.get_run, ofResult_run,
    World.noting_store, fails]

/-- What its expression gives is assigned to the targets in turn. -/
theorem Stmt.exec_assign_run (settings : Settings) (targets : List Target) {expr : Expr}
    {datum : Datum} (found : expr.eval world.store = .ok datum) :
    ∃ trace, (Stmt.assign targets expr).exec settings world =
      (do targets.forM (assignName settings datum); return .normal : Exec Flow)
        (world.giving [] 0 trace) := by
  obtain ⟨trace, noted⟩ := World.exists_noting_eq settings (.start "Assign") world
  refine ⟨trace, ?_⟩
  rw [← noted]
  simp only [exec, noteStart, kindName, Exec.bind_run, note_run, Exec.get_run, ofResult_run,
    World.noting_store, found]

/-- Scanning goes through the names in turn. -/
theorem Stmt.exec_scan_run (settings : Settings) (names : List Target) (world : World) :
    ∃ trace, (Stmt.scan names).exec settings world =
      (do names.forM (scanName settings); return .normal : Exec Flow)
        (world.giving [] 0 trace) := by
  obtain ⟨trace, noted⟩ := World.exists_noting_eq settings (.start "ScanStmt") world
  refine ⟨trace, ?_⟩
  rw [← noted]
  simp only [exec, noteStart, kindName, Exec.bind_run, note_run]

end Steps

section Ends

variable {store : Store} {value : Value} {labels taken : List Label} {outcome : Except Failure Flow}

/-- An assignment succeeds when all labels take the value, and not otherwise. -/
theorem AssignEnds.eq_ok_iff (takes : ∀ label ∈ taken, store.Takes value label)
    (ends : AssignEnds store.typing? value labels taken outcome) :
    outcome = .ok .normal ↔ ∀ label ∈ labels, store.Takes value label := by
  cases ends with
  -- All labels have taken the value, so that both sides hold.
  | all => exact ⟨fun _ => takes, fun _ => rfl⟩
  | undeclared unknown =>
    -- The outcome is a fault; if all took the value, so would the label at which it arose.
    refine ⟨nofun, fun all => ?_⟩
    obtain ⟨type, known, -⟩ := all _ (List.mem_append_right taken List.mem_cons_self)
    rw [unknown] at known
    cases known
  | otherKind known differs =>
    refine ⟨nofun, fun all => ?_⟩
    obtain ⟨type, known', fits⟩ := all _ (List.mem_append_right taken List.mem_cons_self)
    rw [known] at known'
    cases known'
    exact absurd fits differs
  | untyped stray =>
    refine ⟨nofun, fun all => ?_⟩
    obtain ⟨type, known, -⟩ := all _ (List.mem_append_right taken List.mem_cons_self)
    rw [stray] at known
    cases known

/-- A scan never ends with a type mismatch. -/
theorem ScanEnds.ne_typeMismatch {declared : Label → Option Typing} {input : List String}
    {given : List (Label × Value)} {count : Nat}
    (ends : ScanEnds declared input labels given count outcome) (cause : Mismatch) :
    outcome ≠ .error (.fault (.typeMismatch cause)) := by
  rintro rfl
  -- The other endings have faults of their own, or none.
  cases ends with
  | untyped stray fails =>
    simp only [readTyped] at fails
    split at fails <;> cases fails

end Ends

section Runs

variable {world : World} {value : Value} {expr : Expr}

/-- An assignment gives its value to the labels that take it, up to the first that does not. -/
theorem Stmt.exec_assign_ends (settings : Settings) (labels : List Label)
    (found : expr.eval world.store = .ok (.value value)) :
    let result := (Stmt.assign (labels.map .named) expr).exec settings world
    ∃ taken, (∀ label ∈ taken, world.store.Takes value label) ∧
      AssignEnds world.store.typing? value labels taken result.1 ∧
      world.Received (taken.map fun label => (label, value)) 0 result.2 := by
  -- The run goes through the labels after the start has been traced.
  obtain ⟨start, run⟩ := exec_assign_run settings (labels.map .named) found
  obtain ⟨given, trace, received, ends⟩ :=
    Exec.forM_gives (assignName settings (.value value)) 0
      (fun type _ held => held = value ∧ value.kind = type.kind)
      (fun label world => (assignLabel_ends .assign value label world).imp
        (fun ⟨type, trace, known, fits, run⟩ => ⟨type, value, trace, known, ⟨rfl, fits⟩, run⟩)
        fun ⟨failure, run, _⟩ => ⟨failure, world, run⟩)
      labels (world.giving [] 0 start)
  rw [World.giving_typing?] at received
  rw [World.giving_giving, List.nil_append, Nat.zero_mul, Nat.add_zero] at ends
  -- The values that have been given are all the one that was assigned.
  have takes : ∀ pair ∈ given, pair.2 = value ∧ world.store.Takes value pair.1 := by
    rintro ⟨label, held⟩ member
    obtain ⟨place, here⟩ := List.mem_iff_getElem?.mp member
    obtain ⟨type, known, rfl, fits⟩ := received place label held here
    exact ⟨rfl, type, known, fits⟩
  -- All have been given the one value.
  have one : (given.map Prod.fst).map (fun label => (label, value)) = given := by
    rw [List.map_map]
    refine (List.map_congr_left fun pair member => ?_).trans (List.map_id given)
    exact Prod.ext rfl (takes pair member).1.symm
  have each : ∀ label ∈ given.map Prod.fst, world.store.Takes value label :=
    List.forall_mem_map.mpr fun pair member => (takes pair member).2
  have declared : ∀ pair ∈ given, (world.store.typing? pair.1).isSome = true := by
    intro pair member
    obtain ⟨type, known, -⟩ := (takes pair member).2
    exact Option.isSome_iff_exists.mpr ⟨_, known⟩
  refine ⟨given.map Prod.fst, each, ?_⟩
  rw [run, one, Exec.bind_run]
  rcases ends with ⟨rfl, done⟩ | ⟨label, rest, failure, after, rfl, fails, stopped⟩
  · rw [done]
    exact ⟨.all, World.received_giving declared 0 trace⟩
  -- The label that failed has failed in one of the known ways.
  · rcases assignLabel_ends .assign value label (world.giving given 0 trace) with
      ⟨_, _, -, -, run⟩ | ⟨cause, run, stops⟩
    · cases run.symm.trans fails
    · cases run.symm.trans fails
      rw [World.giving_typing?] at stops
      rw [stopped]
      exact ⟨stops _ rest, World.received_giving declared 0 trace⟩

/-- A scan gives the labels what the lines are read as, up to the first that fails. -/
theorem Stmt.exec_scan_ends (settings : Settings) (labels : List Label) (world : World) :
    let result := (Stmt.scan (labels.map .named)).exec settings world
    ∃ given count,
      (∀ place label value, given[place]? = some (label, value) →
        world.store.Reads (lineAt world.console.input place) label value) ∧
      ScanEnds world.store.typing? world.console.input labels given count result.1 ∧
      world.Received given count result.2 := by
  obtain ⟨start, run⟩ := exec_scan_run settings (labels.map .named) world
  obtain ⟨given, trace, received, ends⟩ :=
    Exec.forM_gives (scanName settings) 1 (fun type line value => readInput type line = .ok value)
      (fun label world => (scanName_ends label world).imp_right
        fun ⟨failure, count, run, _⟩ => ⟨failure, _, run⟩)
      labels (world.giving [] 0 start)
  rw [World.giving_giving, List.nil_append, Nat.one_mul, Nat.zero_add] at ends
  -- The lines are those of the input in order, one for each label.
  have reads : ∀ place label value, given[place]? = some (label, value) →
      world.store.Reads (lineAt world.console.input place) label value := by
    intro place label value here
    rw [← Nat.one_mul place]
    exact received place label value here
  have declared : ∀ pair ∈ given, (world.store.typing? pair.1).isSome = true := by
    rintro ⟨label, value⟩ member
    obtain ⟨place, here⟩ := List.mem_iff_getElem?.mp member
    obtain ⟨type, known, -⟩ := reads place label value here
    exact Option.isSome_iff_exists.mpr ⟨_, known⟩
  rw [run, Exec.bind_run]
  rcases ends with ⟨rfl, done⟩ | ⟨label, rest, failure, after, rfl, fails, stopped⟩
  -- All labels have got their values, so that as many lines have been read.
  · rw [done]
    exact ⟨given, given.length, reads, .all, World.received_giving declared _ trace⟩
  · rcases scanName_ends label (world.giving given given.length trace) with
      ⟨_, _, _, -, -, run⟩ | ⟨cause, count, run, stops⟩
    · cases run.symm.trans fails
    · cases run.symm.trans fails
      rw [World.giving_typing?] at stops
      rw [stopped, World.giving_giving, List.append_nil]
      refine ⟨given, given.length + count, reads, stops given rest _ ?_,
        World.received_giving declared _ _⟩
      -- The next line is the one after those that have been read.
      exact (lineAt_drop _ _ 0).symm

end Runs

/-- Statements with several targets stop at the first one that fails.

An assignment whose expression fails changes no variable. If it gives a value, this is assigned to
the labels in order, up to the first that calls no variable or one of another kind; it succeeds if
and only if there is none.

A scan reads one line for each label, in order, up to the first that calls no variable, for which
no line is read, or whose line spells no value of its type. It never meets a type mismatch.

In both, a variable holds the last value that it has been given, and nothing has changed about any
other label, nor in the world but for its trace and the lines that have been read. -/
theorem Stmt.targets_stop (settings : Settings) (labels : List Label) (world : World) :
    (∀ expr,
      let result := (Stmt.assign (labels.map .named) expr).exec settings world
      (∀ failure, expr.eval world.store = .error failure →
        result.1 = .error failure ∧ result.2.store = world.store) ∧
      ∀ value, expr.eval world.store = .ok (.value value) →
        (result.1 = .ok .normal ↔ ∀ label ∈ labels, world.store.Takes value label) ∧
        ∃ taken, (∀ label ∈ taken, world.store.Takes value label) ∧
          AssignEnds world.store.typing? value labels taken result.1 ∧
          world.Received (taken.map fun label => (label, value)) 0 result.2) ∧
    let result := (Stmt.scan (labels.map .named)).exec settings world
    (∀ cause, result.1 ≠ .error (.fault (.typeMismatch cause))) ∧
    ∃ given count,
      (∀ place label value, given[place]? = some (label, value) →
        world.store.Reads (lineAt world.console.input place) label value) ∧
      ScanEnds world.store.typing? world.console.input labels given count result.1 ∧
      world.Received given count result.2 := by
  -- The expression fails, or it gives a value, or the statement is a scan.
  refine ⟨fun expr => ⟨fun failure fails => ?_, fun value found => ?_⟩, ?_⟩
  · obtain ⟨trace, run⟩ := exec_assign_fails settings (labels.map .named) fails
    rw [run]
    exact ⟨rfl, rfl⟩
  · obtain ⟨taken, takes, ends, received⟩ := exec_assign_ends settings labels found
    exact ⟨ends.eq_ok_iff takes, taken, takes, ends, received⟩
  · obtain ⟨given, count, reads, ends, received⟩ := exec_scan_ends settings labels world
    exact ⟨ends.ne_typeMismatch, given, count, reads, ends, received⟩

/-- An integer and a character after it: both statements give the first one its value and stop at
the second one, the scan with the second line. -/
theorem Stmt.targets_stop_midway :
    ∃ (world : World) (labels : List Label) (five : Expr) (assigned scanned : World),
      five.eval world.store = .ok (.value (.integer 5)) ∧
      (Stmt.assign (labels.map .named) five).exec {} world =
        (.error (.fault (.typeMismatch (.assignment .integer "b" .char))), assigned) ∧
      assigned.store.get (.name "a") = .ok (.integer 5) ∧
      (∃ taken : List Label,
        world.Received (taken.map fun label => (label, .integer 5)) 0 assigned) ∧
      (Stmt.scan (labels.map .named)).exec {} world =
        (.error (.fault (.invalidConversion (.notOneChar "no"))), scanned) ∧
      scanned.store.get (.name "a") = .ok (.integer 7) ∧ scanned.console.linesRead = 2 ∧
      ∃ given count, world.Received given count scanned := by
  -- The second variable is a character, which an integer does not fit and two letters do not spell.
  let store : Store := ⟨[⟨.name "a", .known .int, .absent⟩, ⟨.name "b", .known .char, .absent⟩]⟩
  let world : World := { store := store, console := { input := ["7", "no", "8"] } }
  let labels : List Label := [.name "a", .name "b", .name "a"]
  let five : Expr := .literal (.value (.integer 5))
  obtain ⟨assigns, -, given, count, -, -, received⟩ := targets_stop {} labels world
  obtain ⟨-, taken, -, -, received'⟩ := (assigns five).2 (.integer 5) rfl
  exact ⟨world, labels, five, _, _, rfl, rfl, rfl, ⟨taken, received'⟩, rfl, rfl, rfl,
    given, count, received⟩

end Pseudocode
