import Pseudocode.Proofs.Exec.Lockstep

/-! The footprint of a statement: it changes only variables that it writes, and only variables that
occur in it matter to it. -/

namespace Pseudocode

section Frame

variable {settings : Settings} {label : Label}

/-- The frame of all that leaves what is told about a label alone. -/
def untouched (label : Label) : Frame where
  -- What is told is all that can be found out about a variable.
  Rel before after := after.store.view label = before.store.view label
  refl _ := rfl
  trans first second := second.trans first
  noting _ _ _ := by rw [World.noting_store]
  writing _ _ := rfl
  reading _ := rfl

/-- Getting over a fault touches no variable. -/
theorem recover_untouched (fault : Fault) :
    (untouched label).Keeps (recover settings fault) := by
  intro world
  rw [recover_run]
  -- A fault stops the run, or is reported.
  split
  · rfl
  · exact congrArg (Store.view · label) (World.reporting_store ..)

/-- Declaring a name touches no variable of another label. -/
theorem declareName_untouched (typing : Typing) (initial : Option Datum) {name : Target}
    (apart : ∀ written ∈ name.labels, written.same label = false) :
    (untouched label).Keeps (declareName settings typing initial name) := by
  intro world
  cases name with
  | stray defect => rfl
  | named written =>
    have other : written.same label = false := apart written (by simp [Target.labels])
    rw [declareName_run]
    cases starts : Store.startingValue written typing initial (world.store.view written) with
    -- Nothing has been declared.
    | error failure =>
      cases failure with
      | fault fault => exact recover_untouched fault world
      | defect defect => rfl
      | unfinished => rfl
    | ok value =>
      -- The new variable stands under a label that calls none of the others.
      have fresh := Store.view_eq_none_of_startingValue starts
      have kept : (untouched label).Rel world
          (world.storing (world.store.add written typing value)) := by
        -- The search for the label passes over the new variable.
        change (world.store.add written typing value).view label = world.store.view label
        rw [Store.view_add _ _ fresh, other]
        rfl
      exact (untouched label).trans kept ((untouched label).noting settings _ _)

/-- Giving a variable a value touches no variable of another label. -/
theorem assignLabel_untouched (how : Update) (datum : Datum) {written : Label}
    (apart : written.same label = false) :
    (untouched label).Keeps (assignLabel settings how datum written) := by
  intro world
  -- Only what the assignment admits is stored.
  rw [assignLabel_run, Store.assign_eq]
  cases Store.admittedValue written datum (world.store.view written) with
  | error failure => rfl
  | ok value =>
    have kept : (untouched label).Rel world (world.storing (world.store.set written value)) := by
      change (world.store.set written value).view label = world.store.view label
      rw [Store.view_set, apart]
      rfl
    dsimp only [Except.map]
    -- The value has been stored, whether or not it can be traced.
    cases datum.toValue with
    | error failure => exact kept
    | ok traced => exact (untouched label).trans kept ((untouched label).noting settings _ _)

/-- Assigning a name touches no variable of another label. -/
theorem assignName_untouched (datum : Datum) {name : Target}
    (apart : ∀ written ∈ name.labels, written.same label = false) :
    (untouched label).Keeps (assignName settings datum name) := by
  cases name with
  | stray defect => exact .throw (.defect defect)
  | named written =>
    have other : written.same label = false := apart written (by simp [Target.labels])
    exact assignLabel_untouched .assign datum other

/-- Scanning a name touches no variable of another label. -/
theorem scanName_untouched {name : Target}
    (apart : ∀ written ∈ name.labels, written.same label = false) :
    (untouched label).Keeps (scanName settings name) := by
  cases name with
  | stray defect => exact .throw (.defect defect)
  | named written =>
    have other : written.same label = false := apart written (by simp [Target.labels])
    -- The type is looked up and a line is read, and only then a variable changes.
    show (untouched label).Keeps do
      let typing ← ofResult (liftFault ((← get).store.typing written))
      let line ← nextLine
      let value ← ofResult (readTyped line typing)
      assignLabel settings .scan (.value value) written
    refine Frame.Keeps.get.bind fun world => (Frame.Keeps.ofResult _).bind fun typing => ?_
    refine Frame.Keeps.bind (fun world => (untouched label).reading world) fun line => ?_
    exact (Frame.Keeps.ofResult _).bind fun value => assignLabel_untouched .scan _ other

/-- All runs that write only other labels leave what is told about a label alone. -/
def untouchedRuns (settings : Settings) (label : Label) : Congruence settings settings
    -- The steps of statements are those of the frame.
    (.labelled (fun _ => []) fun written => written.same label = false) :=
  (untouched label).runs recover_untouched declareName_untouched assignName_untouched
    scanName_untouched

end Frame

section Agreement

variable {settings : Settings} {store : Store}

/-- Tracing is the same with other variables. -/
theorem World.storing_noting (event : Event) (world : World) :
    (world.storing store).noting settings event = (world.noting settings event).storing store := by
  simp only [noting, storing]
  -- The trace grows in both worlds or in neither.
  split
  · rfl
  · rfl

/-- A report is the same with other variables. -/
theorem World.storing_reporting (fault : Fault) (world : World) :
    (world.storing store).reporting settings fault =
      (world.reporting settings fault).storing store := by
  -- Nothing that a report changes is a variable, whether or not it is traced.
  simp only [reporting, noting, storing]
  split
  · rfl
  · rfl

/-- Two runs that have the variables of allowed labels in common. The worlds may differ in their
other variables, and in nothing else. -/
def commonVariables (settings : Settings) (allowed : Label → Prop) :
    Coupling settings settings allowed where
  Rel world world' := ∃ store, world' = world.storing store ∧ world.store.Agrees allowed store
  -- The comparison goes on to the end of the runs.
  Over _ := False
  lasting _ := id
  alike := .refl settings
  agrees := by
    rintro world _ ⟨store, rfl, agrees⟩
    -- The variables that the worlds have in common are all that an expression can ask for.
    exact agrees
  noting {world _} event := by
    rintro ⟨store, rfl, agrees⟩
    refine ⟨store, World.storing_noting event world, ?_⟩
    rwa [World.noting_store]
  reporting {world _} fault := by
    rintro ⟨store, rfl, agrees⟩
    refine ⟨store, World.storing_reporting fault world, ?_⟩
    rwa [World.reporting_store]
  writing {world _} line := by
    rintro ⟨store, rfl, agrees⟩
    exact ⟨store, rfl, agrees⟩
  reading := by
    rintro world _ ⟨store, rfl, agrees⟩
    exact .inr ⟨rfl, store, rfl, agrees⟩
  adding typing value := by
    -- A variable that is new to one world is new to the other, since the label is a common one.
    rintro ⟨store, rfl, agrees⟩ permitted fresh
    exact ⟨store.add _ typing value, rfl, agrees.add permitted value fresh⟩
  setting value := by
    -- What is stored in one world is stored in the other.
    rintro ⟨store, rfl, agrees⟩ _
    exact ⟨store.set _ value, rfl, agrees.set value⟩

end Agreement

/-- What a step has to do with the variables of some labels. -/
structure Exec.Footprint {α : Type} (step : Exec α) (written labels : List Label) : Prop where
  /-- What is told about any label that is not written stays as it is: whether it calls a variable,
  what the variable is declared as, and its value. -/
  frame : ∀ world label, (∀ target ∈ written, target.same label = false) →
    (step world).2.store.view label = world.store.view label
  /-- With other variables of which the same is told about the labels, the step has the same outcome
  and leaves the same world but for variables, of which again the same is told. -/
  agree : ∀ world other, world.store.Agrees (· ∈ labels) other →
    ∃ after, step (world.storing other) = ((step world).1, (step world).2.storing after) ∧
      (step world).2.store.Agrees (· ∈ labels) after

/-- The footprint of a walk: it keeps to the frames of all labels that it does not write, and it is
in step with itself where the variables of its labels are the same. -/
theorem Walk.footprint {α : Type} {settings : Settings} {walk : Walk α}
    {written labels : List Label}
    (frames : ∀ label, (∀ target ∈ written, target.same label = false) →
      walk.Linked (untouched label).Rel)
    (together : (commonVariables settings (· ∈ labels)).InStep walk.step walk.step) :
    walk.step.Footprint written labels := by
  constructor
  · -- The frame of the label is kept in every world.
    intro world label apart
    exact (frames label apart).keeps world
  · -- The two runs start from worlds with the same variables of these labels.
    intro world other agrees
    rcases together.meets ⟨other, rfl, agrees⟩ with past | ⟨outcome, after, left, agrees'⟩
    · exact past.elim
    · exact ⟨after, Prod.ext outcome left, agrees'⟩

/-- The footprint of a statement. Running it, to its end by itself, to a break or to a failure,
changes nothing that is told about a label but those that it declares, assigns or scans. And only
the variables of labels that occur in it matter: with others that are told about in the same way it
ends in the same way, with the same flow, output, reports, faults, trace and lines read, and then
again the same is told about all labels that occur. Both hold of the statement alone and of the
statement with its fault got over, however many turns its loops may take. -/
theorem Stmt.footprint_sound (settings : Settings) (stmt : Stmt) :
    (stmt.exec settings).Footprint stmt.written stmt.labels ∧
      (stmt.run settings).Footprint stmt.written stmt.labels := by
  -- The walk of a statement has the parts that its labels allow, for the frames and for the pairs.
  have frames : ∀ label, (∀ target ∈ stmt.written, target.same label = false) →
      (stmt.walk settings).Linked (untouched label).Rel := fun label apart =>
    (untouchedRuns settings label).stmt stmt (stmt.uses_of_gather apart)
  have together : (commonVariables settings (· ∈ stmt.labels)).InStep (stmt.walk settings).step
      (stmt.walk settings).step :=
    (commonVariables settings (· ∈ stmt.labels)).congruence.stmt stmt
      (stmt.uses_of_gather fun _ occurs => occurs)
  constructor
  · -- The statement alone is its walk.
    rw [← Stmt.walk_step]
    exact Walk.footprint frames together
  · -- Getting over a fault is one more step, which touches no variable.
    have contained : ((stmt.walk settings).contain settings .normal).step.Footprint stmt.written
        stmt.labels := by
      refine Walk.footprint (fun label apart => ?_) (together.contain .normal)
      exact (frames label apart).contain fun fault => .atom (recover_untouched fault)
    rw [Walk.contain_step, Stmt.walk_step] at contained
    exact contained

/-- An assignment to `b` of what `a` holds, where one store has a variable `c` and the other has
none: `c` is left as it is, and `b` gets the same value in both. -/
theorem Stmt.footprint_sound_assign :
    ∃ (stmt : Stmt) (world : World) (other after : Store),
      world.store.contains (.name "c") = true ∧ other.contains (.name "c") = false ∧
      stmt.exec {} (world.storing other) = (.ok .normal, (stmt.exec {} world).2.storing after) ∧
      after.get (.name "b") = .ok (.boolean true) ∧
      (stmt.exec {} world).2.store.view (.name "c") = world.store.view (.name "c") := by
  let stmt : Stmt := .assign [.ofName "b"] (.ident (.name "a"))
  let other : Store :=
    ⟨[⟨.name "a", .known .bool, .boolean true⟩, ⟨.name "b", .known .bool, .boolean false⟩]⟩
  let world : World := { store := other.add (.name "c") (.known .bool) (.boolean false) }
  have footprint := (stmt.footprint_sound {}).1
  -- Nothing else than `b` is written, and nothing else than `b` and `a` occurs.
  have occurring : stmt.labels = [.name "b", .name "a"] := rfl
  have agrees : world.store.Agrees (· ∈ stmt.labels) other := by
    intro label occurs
    simp only [occurring, List.mem_cons, List.not_mem_nil, or_false] at occurs
    rcases occurs with rfl | rfl
    · rfl
    · rfl
  obtain ⟨after, same, agrees'⟩ := footprint.agree world other agrees
  refine ⟨stmt, world, other, after, rfl, rfl, same, ?_, footprint.frame world _ (by decide)⟩
  -- Both stores tell the same about the variable that has been assigned.
  rw [Store.get_eq, agrees' (.name "b") (by simp [occurring])]
  rfl

end Pseudocode
