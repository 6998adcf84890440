import Pseudocode.Proofs.Exec.Progress
import Pseudocode.Proofs.Store.View

/-! Declarations are their groups in turn: names that share an initial value may as well be declared
by a statement of their own, and what such a statement does is known in full. -/

namespace Pseudocode

/-- A name that is declared without an initial value of its own. -/
def Declarator.bare (name : Target) : Declarator :=
  ⟨name, none⟩

/-- Declarators are the given groups in turn. -/
inductive Grouped : List Declarator → List (List Declarator) → Prop where
  /-- There is nothing to declare. -/
  | done : Grouped [] []
  /-- Names that no initial value follows are the last group. -/
  | trailing {names : List Target} (some : names ≠ []) :
    Grouped (names.map .bare) [names.map .bare]
  /-- Names go with the next one that has an initial value. -/
  | next {names : List Target} {name : Target} {initial : Expr} {rest : List Declarator}
    {groups : List (List Declarator)} (later : Grouped rest groups) :
    Grouped (names.map .bare ++ ⟨name, some initial⟩ :: rest)
      ((names.map .bare ++ [⟨name, some initial⟩]) :: groups)

/-- Declarators that form one group, with an initial value after the last label or without one. -/
def oneGroup (labels : List Label) (last : Label) (initial : Option Expr) : List Declarator :=
  labels.map (fun label => .bare (.named label)) ++ [⟨.named last, initial⟩]

/-- The first occurrence of each label, in order. -/
def firstOccurrences : List Label → List Label
  | [] => []
  -- A later occurrence of the first label goes, also when it is spelled differently.
  | label :: rest => label :: (firstOccurrences rest).filter fun other => !label.same other

/-- The labels that call no variable yet, in the order of their first occurrence. -/
def newLabels (store : Store) (labels : List Label) : List Label :=
  firstOccurrences (labels.filter fun label => !store.contains label)

/-- The value that a group has for its variables. Without an initial value it is that of a variable
without one. -/
def GivesInitial (store : Store) (value : Value) : Option Expr → Prop
  | none => value = .absent
  | some initial => initial.eval store = .ok (.value value)

/-- The world after some faults have been recorded and shown, in a run that is not traced. -/
def World.faulting (faults : List Fault) (world : World) : World :=
  { world with
    faults := world.faults ++ faults.toArray
    console :=
      { world.console with
        reports := world.console.reports ++
          (faults.map fun fault => "Error: " ++ fault.message).toArray } }

section Grouping

/-- A single declarator is put before grouped ones. -/
theorem Grouped.cons {declarators : List Declarator} {groups : List (List Declarator)}
    (grouped : Grouped declarators groups) (name : Target) (initial : Option Expr) :
    ∃ groups, Grouped (⟨name, initial⟩ :: declarators) groups := by
  cases initial with
  | some initial => exact ⟨_, @Grouped.next [] name initial _ _ grouped⟩
  | none =>
    -- A name without an initial value joins the group after it, if there is one.
    cases grouped with
    | done => exact ⟨_, @Grouped.trailing [name] (List.cons_ne_nil _ _)⟩
    | @trailing names => exact ⟨_, @Grouped.trailing (name :: names) (List.cons_ne_nil _ _)⟩
    | @next names _ _ _ _ later => exact ⟨_, @Grouped.next (name :: names) _ _ _ _ later⟩

/-- All declarators can be grouped. -/
theorem exists_grouped (declarators : List Declarator) : ∃ groups, Grouped declarators groups := by
  -- The declarators are grouped from the end.
  induction declarators with
  | nil => exact ⟨[], .done⟩
  | cons declarator rest ih =>
    obtain ⟨groups, grouped⟩ := ih
    exact grouped.cons declarator.name declarator.initial

/-- Names without initial values join the open group. -/
theorem declGroupsFrom_bare (names opened : List Target) (rest : List Declarator) :
    declGroupsFrom opened (names.map .bare ++ rest) =
      declGroupsFrom (names.reverse ++ opened) rest := by
  -- The open group is kept in reverse, with the latest name first.
  induction names generalizing opened with
  | nil => rfl
  | cons name names ih =>
    rw [List.reverse_cons, List.append_assoc]
    exact ih (name :: opened)

/-- An initial value closes the group of the names before it. -/
theorem declGroups_next (names : List Target) (name : Target) (initial : Expr)
    (rest : List Declarator) :
    declGroups (names.map .bare ++ ⟨name, some initial⟩ :: rest) =
      ⟨names ++ [name], some initial⟩ :: declGroups rest := by
  rw [declGroups, declGroupsFrom_bare, declGroupsFrom]
  simp [declGroups]

/-- Names that no initial value follows are one group. -/
theorem declGroups_trailing {names : List Target} (some : names ≠ []) :
    declGroups (names.map .bare) = [⟨names, none⟩] := by
  -- Nothing follows, so that the last group is closed by the end.
  have only := declGroupsFrom_bare names [] []
  rw [List.append_nil, List.append_nil] at only
  rw [declGroups, only, declGroupsFrom]
  simp [some]

/-- Cutting declarators into groups cuts each of their groups into one. -/
theorem Grouped.declGroups_eq {declarators : List Declarator} {groups : List (List Declarator)}
    (grouped : Grouped declarators groups) :
    declGroups declarators = groups.flatMap declGroups := by
  induction grouped with
  | done => rfl
  | trailing some => simp
  | next later ih =>
    -- The initial value closes its group, whether or not there is anything after it.
    rw [List.flatMap_cons, declGroups_next, declGroups_next, ih]
    rfl

/-- The declarators of one group are cut into this one. -/
theorem declGroups_oneGroup (labels : List Label) (last : Label) (initial : Option Expr) :
    declGroups (oneGroup labels last initial) =
      [⟨(labels ++ [last]).map .named, initial⟩] := by
  -- Names are put in as declarators, and these are read as names again.
  have shape : oneGroup labels last initial =
      (labels.map Target.named).map .bare ++ [⟨.named last, initial⟩] := by
    simp [oneGroup, Function.comp_def]
  cases initial with
  | some initial =>
    rw [shape, declGroups_next]
    simp [declGroups, declGroupsFrom]
  -- Without an initial value the last name is one of those that nothing follows.
  | none =>
    have trailing : oneGroup labels last none =
        ((labels ++ [last]).map Target.named).map .bare := by
      rw [shape]
      simp [Declarator.bare]
    rw [trailing, declGroups_trailing (by simp)]

end Grouping

section Settling

variable {settings : Settings}

/-- Declaring a name gets over every fault that can be got over. -/
theorem declareName_onlyFatal (loose : settings.strict = false) (typing : Typing)
    (initial : Option Datum) (name : Target) :
    (declareName settings typing initial name).OnlyFatal := by
  intro world fault stopped
  -- A name that is none stops the run, and a label may be taken.
  cases name with
  | stray defect => cases stopped
  | named label =>
    rw [declareName_run] at stopped
    cases answer : Store.startingValue label typing initial (world.store.view label) with
    | error failure =>
      rw [answer] at stopped
      cases failure with
      | fault met => exact Exec.OnlyFatal.recover loose met world fault stopped
      | defect defect => cases stopped
      | unfinished => cases stopped
    | ok value =>
      rw [answer] at stopped
      cases stopped

/-- Declaring a group gets over every fault that can be got over. -/
theorem declareGroup_onlyFatal (loose : settings.strict = false) (typing : Typing)
    (group : DeclGroup) : (declareGroup settings typing group).OnlyFatal := by
  -- Each name is declared with the value that has been found for the group.
  have names (initial : Option Datum) :
      (group.names.forM (declareName settings typing initial)).OnlyFatal :=
    .forM (declareName_onlyFatal loose typing initial) group.names
  unfold declareGroup
  cases group.initial with
  | none => exact names none
  | some expr =>
    -- The initial value is contained by itself, before any name is declared.
    refine (Exec.OnlyFatal.contain loose _ _).bind fun found => ?_
    -- Where no initial value has been found, there is nothing left to be done.
    cases found with
    | none => exact .pure ()
    | some initial => exact names initial

/-- A step that gets over its faults by itself may stand before what is contained. -/
theorem contain_bind {α β : Type} {first : Exec α} (settled : settings.strict = false →
    first.OnlyFatal) (next : α → Exec β) (instead : β) :
    contain settings (first >>= next) instead =
      first >>= fun a => contain settings (next a) instead := by
  funext world
  rw [contain_run, Exec.bind_run, Exec.bind_run]
  rcases done : first world with ⟨failure | a, after⟩
  · cases failure with
    | fault fault =>
      -- The fault stops the run, so that containing it makes no difference.
      have stops : (fault.isFatal || settings.strict) = true := by
        cases strict : settings.strict with
        | true => exact Bool.or_true _
        | false => simp [settled strict world fault (by rw [done])]
      simp only [if_pos stops]
    | defect defect => rfl
    | unfinished => rfl
  · -- Where the first step succeeds, only the second is left to be contained.
    dsimp only
    rw [contain_run]

/-- Without a trace, starting a statement changes nothing. -/
theorem noteStart_quiet (quiet : settings.debug = 0) (stmt : Stmt) :
    noteStart settings stmt = pure () := by
  -- Only the trace notes that a statement is started.
  cases stmt with
  | noBlock node => rfl
  | _ => simp [noteStart, note, Event.level, quiet]

/-- A declaration is run by declaring its groups in turn. -/
theorem Stmt.run_declare (quiet : settings.debug = 0) (typing : Typing)
    (declarators : List Declarator) :
    (Stmt.declare typing declarators).run settings =
      do (declGroups declarators).forM (declareGroup settings typing); return .normal := by
  simp only [run, exec, noteStart_quiet quiet, pure_bind, List.forM_eq_forM]
  -- Each group gets over its own faults, so that the handler has nothing to do.
  induction declGroups declarators with
  | nil => rfl
  | cons group groups ih =>
    rw [List.forM_cons, bind_assoc,
      contain_bind fun loose => declareGroup_onlyFatal loose typing group, ih]

/-- A declaration in a list of statements declares its groups in turn, and then the rest is run. -/
theorem execBlock_declare (quiet : settings.debug = 0) (typing : Typing)
    (declarators : List Declarator) (rest : List Stmt) :
    execBlock settings (.declare typing declarators :: rest) =
      (declGroups declarators).forM (declareGroup settings typing) >>= fun _ =>
        execBlock settings rest := by
  -- A statement in a list is run first, and then the rest.
  have run := Stmt.run_declare quiet typing declarators
  rw [Stmt.run] at run
  rw [execBlock, run, sequence, bind_assoc]
  rfl

/-- Declarations in a list of statements declare their groups in turn. -/
theorem execBlock_declares (quiet : settings.debug = 0) (typing : Typing)
    (groups : List (List Declarator)) (rest : List Stmt) :
    execBlock settings (groups.map (.declare typing) ++ rest) =
      (groups.flatMap declGroups).forM (declareGroup settings typing) >>= fun _ =>
        execBlock settings rest := by
  induction groups with
  | nil => rfl
  | cons group groups ih =>
    -- The groups of all declarations stand in one row.
    rw [List.map_cons, List.cons_append, execBlock_declare quiet, ih, List.flatMap_cons]
    simp only [List.forM_eq_forM, List.forM_append, bind_assoc]

/-- Statements may be replaced by others that do the same at the end of a list. -/
theorem execBlock_append_congr {rest rest' : List Stmt}
    (same : execBlock settings rest = execBlock settings rest') (before : List Stmt) :
    execBlock settings (before ++ rest) = execBlock settings (before ++ rest') := by
  induction before with
  | nil => exact same
  | cons stmt before ih => rw [List.cons_append, List.cons_append, execBlock, execBlock, ih]

/-- A declaration at the top level declares its groups in turn. -/
theorem Stmt.runTop_declare (quiet : settings.debug = 0) (typing : Typing)
    (declarators : List Declarator) :
    (Stmt.declare typing declarators).runTop settings =
      (declGroups declarators).forM (declareGroup settings typing) := by
  -- What a statement leaves behind is of no use at the top level.
  rw [runTop, run_declare quiet, bind_assoc]
  exact bind_pure_unit

/-- Declarations at the top level declare their groups in turn. -/
theorem Stmt.runTop_declares (quiet : settings.debug = 0) (typing : Typing)
    (groups : List (List Declarator)) :
    (groups.map (Stmt.declare typing)).forM (Stmt.runTop settings) =
      (groups.flatMap declGroups).forM (declareGroup settings typing) := by
  induction groups with
  | nil => rfl
  | cons group groups ih =>
    simp only [List.forM_eq_forM] at ih ⊢
    rw [List.map_cons, List.forM_cons, Stmt.runTop_declare quiet, ih, List.flatMap_cons,
      List.forM_append, List.forM_eq_forM]

end Settling

section Effect

variable {settings : Settings}

/-- Faults that are recorded and shown at once are those that are one after the other. -/
theorem World.faulting_faulting (faults later : List Fault) (world : World) :
    (world.faulting faults).faulting later = world.faulting (faults ++ later) := by
  simp [faulting]

/-- Without faults nothing is recorded. -/
theorem World.faulting_nil (world : World) : world.faulting [] = world := by
  simp [faulting]

/-- Recording faults has nothing to do with the variables. -/
theorem World.faulting_storing (faults : List Fault) (store : Store) (world : World) :
    (world.faulting faults).storing store = (world.storing store).faulting faults :=
  rfl

/-- In a run that is not traced, a report is recorded and shown and nothing else. -/
theorem World.reporting_quiet (quiet : settings.debug = 0) (fault : Fault) (world : World) :
    world.reporting settings fault = world.faulting [fault] := by
  simp [reporting, faulting, noting, Event.level, quiet]

/-- A run that is neither strict nor traced only records a fault that is not fatal. -/
theorem recover_quiet (quiet : settings.debug = 0) (loose : settings.strict = false) {fault : Fault}
    (stays : fault.isFatal = false) (world : World) :
    recover settings fault world = (.ok (), world.faulting [fault]) := by
  rw [recover_run, loose, stays, if_neg (by simp), World.reporting_quiet quiet]

/-- Declaring a name that has no value to start with is refused. -/
theorem declareName_refused (quiet : settings.debug = 0) (loose : settings.strict = false)
    {typing : Typing} {initial : Option Datum} {label : Label} {world : World} {fault : Fault}
    (refused : Store.startingValue label typing initial (world.store.view label) =
      .error (.fault fault)) (stays : fault.isFatal = false) :
    declareName settings typing initial (.named label) world =
      (.ok (), world.faulting [fault]) := by
  rw [declareName_run, refused]
  exact recover_quiet quiet loose stays world

/-- Declaring a name whose label is taken is refused. -/
theorem declareName_taken (quiet : settings.debug = 0) (loose : settings.strict = false)
    (typing : Typing) (initial : Option Datum) {label : Label} {world : World}
    (taken : world.store.contains label = true) :
    declareName settings typing initial (.named label) world =
      (.ok (), world.faulting [.alreadyDeclared label.text]) := by
  apply declareName_refused quiet loose _ rfl
  rw [Store.startingValue_eq, if_pos taken]

/-- Declaring a name whose label is free adds a variable. -/
theorem declareName_free (quiet : settings.debug = 0) {typing : Typing} {initial : Option Datum}
    {label : Label} {world : World} {value : Value}
    (free : world.store.contains label = false)
    (starts : Store.initialValue typing initial = .ok value) :
    declareName settings typing initial (.named label) world =
      (.ok (), world.storing (world.store.add label typing value)) := by
  rw [declareName_run, Store.startingValue_eq, free, starts]
  simp [World.noting, Event.level, quiet]

/-- First occurrences are found before or after some labels are left out, as long as labels that
call the same variable are left out together. -/
theorem firstOccurrences_filter {keep : Label → Bool}
    (alike : ∀ label other, label.same other = true → keep label = keep other)
    (labels : List Label) :
    firstOccurrences (labels.filter keep) = (firstOccurrences labels).filter keep := by
  -- A label and those called the same are kept together or left out together.
  induction labels with
  | nil => rfl
  | cons label rest ih =>
    cases kept : keep label with
    | true =>
      -- The first label is kept, and the two ways of leaving out labels may be exchanged.
      rw [List.filter_cons_of_pos kept, firstOccurrences, firstOccurrences,
        List.filter_cons_of_pos kept, ih, List.filter_filter, List.filter_filter]
      simp only [Bool.and_comm]
    | false =>
      have gone : ¬keep label = true := by simp [kept]
      rw [List.filter_cons_of_neg gone, firstOccurrences, List.filter_cons_of_neg gone, ih,
        List.filter_filter]
      refine List.filter_congr fun other _ => ?_
      -- What is kept is not called as the first label, which is left out.
      cases kept' : keep other with
      | false => rfl
      | true =>
        cases called : label.same other with
        | false => rfl
        | true =>
          rw [alike label other called, kept'] at kept
          cases kept

/-- A label calls the new variable of a store or one of those before. -/
theorem Store.contains_add (store : Store) (label other : Label) (typing : Typing) (value : Value) :
    (store.add label typing value).contains other = (store.contains other || label.same other) := by
  simp only [contains, find?, add, List.find?_append, List.find?_singleton, Option.isSome_or]
  cases label.same other <;> rfl

/-- The new labels are the first one, when it is new, and then those that are new besides. -/
theorem newLabels_cons {store : Store} {label : Label} (free : store.contains label = false)
    (typing : Typing) (value : Value) (rest : List Label) :
    newLabels store (label :: rest) = label :: newLabels (store.add label typing value) rest := by
  -- Labels that are called the same are left out together.
  have alike : ∀ other third : Label, other.same third = true →
      (!label.same other) = !label.same third := by
    intro other third called
    simp only [Label.same, beq_iff_eq] at called ⊢
    rw [called]
  -- Leaving out what is called as the first label is the same before and after the others.
  unfold newLabels
  rw [List.filter_cons_of_pos (by simp [free]), firstOccurrences, ← firstOccurrences_filter alike,
    List.filter_filter]
  simp only [Store.contains_add, Bool.not_or, Bool.and_comm]

/-- Names are declared with a value that fits: those that are new are added, and the others are
refused. -/
theorem declareNames_fit (quiet : settings.debug = 0) (loose : settings.strict = false)
    {typing : Typing} {initial : Option Datum} {value : Value}
    (starts : Store.initialValue typing initial = .ok value) (labels : List Label) (world : World) :
    ∃ refused : List Label, (refused ++ newLabels world.store labels).Perm labels ∧
      (labels.map Target.named).forM (declareName settings typing initial) world =
        (.ok (), (world.storing ⟨world.store.toList ++
            (newLabels world.store labels).map fun label => ⟨label, typing, value⟩⟩).faulting
          (refused.map fun label => .alreadyDeclared label.text)) := by
  -- Each name is declared in the world that those before it have left.
  induction labels generalizing world with
  | nil =>
    refine ⟨[], .nil, ?_⟩
    simp [newLabels, firstOccurrences, World.faulting_nil, World.storing]
  | cons label rest ih =>
    simp only [List.forM_eq_forM] at ih ⊢
    rw [List.map_cons, List.forM_cons, Exec.bind_run]
    cases taken : world.store.contains label with
    | true =>
      -- The label is refused, and nothing has changed for those after it.
      obtain ⟨refused, split, run⟩ :=
        ih (world.faulting [.alreadyDeclared label.text])
      have known : newLabels world.store (label :: rest) = newLabels world.store rest := by
        rw [newLabels, List.filter_cons_of_neg (by simp [taken]), newLabels]
      rw [declareName_taken quiet loose typing initial taken, known]
      dsimp only
      refine ⟨label :: refused, split.cons label, ?_⟩
      rw [run, World.faulting_storing, World.faulting_faulting]
      rfl
    | false =>
      -- The label is taken from now on, as the new labels after it have to be told.
      obtain ⟨refused, split, run⟩ := ih (world.storing (world.store.add label typing value))
      rw [declareName_free quiet taken starts, newLabels_cons taken typing value]
      dsimp only
      refine ⟨refused, List.perm_middle.trans (split.cons label), ?_⟩
      rw [run]
      simp [World.storing, Store.add]

/-- Names are all refused with a value that does not fit. -/
theorem declareNames_unfit (quiet : settings.debug = 0) (loose : settings.strict = false)
    -- No name is added, so that the world changes only by its faults.
    {typing : Typing} {initial : Option Datum} {fault : Fault}
    (unfit : Store.initialValue typing initial = .error (.fault fault))
    (stays : fault.isFatal = false) (labels : List Label) (world : World) :
    (labels.map Target.named).forM (declareName settings typing initial) world =
      (.ok (), world.faulting (labels.map fun label =>
        if world.store.contains label then .alreadyDeclared label.text else fault)) := by
  induction labels generalizing world with
  | nil => simp [World.faulting_nil]
  | cons label rest ih =>
    simp only [List.forM_eq_forM] at ih ⊢
    rw [List.map_cons, List.forM_cons, Exec.bind_run]
    -- Whether or not the label is taken, one fault is reported for it.
    have first : declareName settings typing initial (.named label) world =
        (.ok (), world.faulting
          [if world.store.contains label then .alreadyDeclared label.text else fault]) := by
      apply declareName_refused quiet loose
      · rw [Store.startingValue_eq, unfit]
        split <;> rfl
      · split
        · rfl
        · exact stays
    rw [first]
    dsimp only
    rw [ih, World.faulting_faulting]
    rfl

/-- A conversion fails with a fault that can be got over. -/
theorem Value.isFatal_of_convert {type : VarType} {value : Value} {fault : Fault}
    (unfit : value.convert type = .error fault) : fault.isFatal = false := by
  -- A value is converted or not, and if not, then the conversion is said to be invalid.
  unfold convert at unfit
  split at unfit
  · cases unfit
  · cases unfit
    rfl

/-- A group whose initial value is found declares its names with it. -/
theorem declareGroup_gives {store : Store} {value : Value} {initial : Option Expr}
    (gives : GivesInitial store value initial) (type : VarType) :
    ∃ datum, Store.initialValue (.known type) datum = liftFault (value.convert type) ∧
      ∀ names world, world.store = store →
        declareGroup settings (.known type) ⟨names, initial⟩ world =
          names.forM (declareName settings (.known type) datum) world := by
  cases initial with
  | none =>
    -- No value is brought to every type as no value.
    cases gives
    exact ⟨none, by simp [Store.initialValue, Value.convert, Value.convert?, liftFault],
      fun names world same => rfl⟩
  | some expr =>
    -- The initial value is the same for all names, since it is found before they are declared.
    refine ⟨some (.value value), rfl, fun names world same => ?_⟩
    have found : expr.eval world.store = .ok (.value value) := same ▸ gives
    simp only [declareGroup, Exec.bind_run, contain_run, Exec.get_run, found, ofResult_run]
    rfl

/-- A group whose initial value is not found declares nothing. -/
theorem declareGroup_fails (quiet : settings.debug = 0) (loose : settings.strict = false)
    {expr : Expr} {fault : Fault} {world : World}
    (fails : expr.eval world.store = .error (.fault fault)) (stays : fault.isFatal = false)
    (typing : Typing) (names : List Target) :
    declareGroup settings typing ⟨names, some expr⟩ world = (.ok (), world.faulting [fault]) := by
  simp only [declareGroup, Exec.bind_run, contain_run, Exec.get_run, fails, ofResult_run, stays,
    loose, World.reporting_quiet quiet]
  rfl

/-- A statement that declares one group does what its group does. -/
theorem Stmt.run_oneGroup (quiet : settings.debug = 0) {typing : Typing} {labels : List Label}
    {last : Label} {initial : Option Expr} {world after : World}
    (done : declareGroup settings typing ⟨(labels ++ [last]).map .named, initial⟩ world =
      (.ok (), after)) :
    (Stmt.declare typing (oneGroup labels last initial)).run settings world =
      (.ok .normal, after) := by
  -- The statement has one group, and what is left behind is that it goes on.
  rw [run_declare quiet, declGroups_oneGroup, List.forM_eq_forM, List.forM_cons, List.forM_nil,
    bind_assoc, Exec.bind_run, done]
  rfl

end Effect

/-- Declarations are their groups in turn. In a run that is not traced, a declaration does in every
place what the declarations of its groups do one after the other. Where the run is not strict
either, a group is declared as follows. If its initial value meets a fault that can be got over,
this is reported once and nothing is declared. If its value can be brought to the type, the new
labels are added with it, in the order of their first occurrence, and each of the others is reported
as declared already. If the value cannot be brought to the type, nothing is declared and one fault
is reported for each label. -/
theorem Stmt.declare_groups {settings : Settings} (quiet : settings.debug = 0) :
    (∀ typing declarators, (∃ groups, Grouped declarators groups) ∧
      ∀ groups, Grouped declarators groups → ∀ before after,
        execBlock settings (before ++ .declare typing declarators :: after) =
          execBlock settings (before ++ (groups.map (.declare typing) ++ after)) ∧
        ∀ world, (Program.mk (before ++ .declare typing declarators :: after)).run settings world =
          (Program.mk (before ++ (groups.map (.declare typing) ++ after))).run settings world) ∧
    (settings.strict = false → ∀ type labels last initial world,
      let names := labels ++ [last]
      let result := (Stmt.declare (.known type) (oneGroup labels last initial)).run settings world
      (∀ expr fault, initial = some expr → expr.eval world.store = .error (.fault fault) →
        fault.isFatal = false → result = (.ok .normal, world.faulting [fault])) ∧
      ∀ value, GivesInitial world.store value initial →
        (∀ converted, value.convert type = .ok converted →
          ∃ refused : List Label,
            (refused ++ newLabels world.store names).Perm names ∧
            refused.length = names.length - (newLabels world.store names).length ∧
            result = (.ok .normal,
              (world.storing ⟨world.store.toList ++ (newLabels world.store names).map
                  fun label => ⟨label, .known type, converted⟩⟩).faulting
                (refused.map fun label => .alreadyDeclared label.text))) ∧
        ∀ fault, value.convert type = .error fault →
          result = (.ok .normal, world.faulting (names.map fun label =>
            if world.store.contains label then .alreadyDeclared label.text else fault))) := by
  -- Both forms come down to declaring the same groups one after the other.
  refine ⟨fun typing declarators => ⟨exists_grouped declarators,
    fun groups grouped before after => ⟨?_, fun world => ?_⟩⟩,
    fun loose type labels last initial world => ⟨fun expr fault given fails stays => ?_,
      fun value gives => ?_⟩⟩
  · -- In a list of statements, what comes before and after makes no difference.
    refine execBlock_append_congr ?_ before
    rw [execBlock_declare quiet, execBlock_declares quiet, grouped.declGroups_eq]
  · -- At the top level every statement is run on its own.
    have same := runTop_declares quiet typing groups
    rw [← grouped.declGroups_eq, ← runTop_declare quiet typing declarators] at same
    simp only [List.forM_eq_forM] at same
    simp only [Program.run, Program.exec, List.forM_eq_forM, List.forM_append, List.forM_cons, same]
  · -- The initial value is not found, so that no name is declared.
    subst given
    exact run_oneGroup quiet (declareGroup_fails quiet loose fails stays _ _)
  · -- The value is found once, and then each name is declared with it.
    obtain ⟨datum, starts, runs⟩ := declareGroup_gives gives type
    refine ⟨fun converted fits => ?_, fun fault unfit => ?_⟩
    · -- Each label that is not refused is one of the new ones.
      rw [fits] at starts
      obtain ⟨refused, split, run⟩ := declareNames_fit quiet loose starts (labels ++ [last]) world
      refine ⟨refused, split, ?_, run_oneGroup quiet ((runs _ world rfl).trans run)⟩
      have count := split.length_eq
      rw [List.length_append] at count
      omega
    · -- No label gets a value.
      rw [unfit] at starts
      have run := declareNames_unfit quiet loose starts (Value.isFatal_of_convert unfit)
        (labels ++ [last]) world
      exact run_oneGroup quiet ((runs _ world rfl).trans run)

/-- A group with a label that is taken and one that occurs twice, and a label after it: these are
two declarations, and the first one adds two variables and reports two faults. -/
theorem Stmt.declare_groups_repeated :
    ∃ (world : World) (labels : List Label) (last other : Label) (seven : Expr),
      execBlock {} [.declare (.known .int) (oneGroup labels last (some seven) ++
          [.bare (.named other)])] =
        execBlock {} [.declare (.known .int) (oneGroup labels last (some seven)),
          .declare (.known .int) [.bare (.named other)]] ∧
      ∃ after, (Stmt.declare (.known .int) (oneGroup labels last (some seven))).run {} world =
          (.ok .normal, after) ∧
        after.store.toList.map (·.label) = [.name "x", .name "a", .name "b"] ∧
        after.faults.size = 2 := by
  -- One label is taken, another one comes twice, and the value fits.
  let world : World := { store := ⟨[⟨.name "x", .known .int, .absent⟩]⟩ }
  let labels : List Label := [.name "a", .name "x", .name "a"]
  let seven : Expr := .literal (.value (.integer 7))
  have quiet : ({} : Settings).debug = 0 := rfl
  obtain ⟨inTurn, oneByOne⟩ := Stmt.declare_groups quiet
  have grouped : Grouped
      (oneGroup labels (.name "b") (some seven) ++ [.bare (.named (.name "c"))])
      [oneGroup labels (.name "b") (some seven), [.bare (.named (.name "c"))]] :=
    @Grouped.next [.named (.name "a"), .named (.name "x"), .named (.name "a")] _ _ _ _
      (@Grouped.trailing [.named (.name "c")] (List.cons_ne_nil _ _))
  obtain ⟨-, fits⟩ := oneByOne rfl .int labels (.name "b") (some seven) world
  obtain ⟨refused, -, count, run⟩ := (fits (.integer 7) rfl).1 (.integer 7) rfl
  refine ⟨world, labels, .name "b", .name "c", seven,
    ((inTurn (.known .int) _).2 _ grouped [] []).1, _, run, rfl, ?_⟩
  have two : refused.length = 2 := count
  simp [World.faulting, World.storing, world, two]

end Pseudocode
