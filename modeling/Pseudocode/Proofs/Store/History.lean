import Pseudocode.Proofs.Exec.Step
import Pseudocode.Proofs.Store.View

/-! A store is what its history makes of it: which variables there are, in which order, as what they
are declared and what they hold follows from the calls that have succeeded. -/

namespace Pseudocode

namespace Store

/-- A call that asks a store for a change. -/
inductive Call where
  /-- A variable is declared, with an initial value or without one. -/
  | declare (label : Label) (type : VarType) (initial : Option Value)
  /-- A variable is given a value. -/
  | assign (label : Label) (value : Value)

namespace Call

/-- The store that a call asks for, or why the call is refused. -/
def request (store : Store) : Call → Except Failure Store
  | .declare label type initial => store.declare label (.known type) (initial.map .value)
  | .assign label value => store.assign label (.value value)

/-- The step of a run that makes a call. -/
def step (settings : Settings) : Call → Exec Unit
  | .declare label type initial =>
    declareName settings (.known type) (initial.map .value) (.named label)
  | .assign label value => assignLabel settings .assign (.value value) label

/-- The label that a call declares, if it declares one. -/
def declared? : Call → Option Label
  | .declare label _ _ => some label
  | .assign _ _ => none

/-- What a call declares the variable of a label with: a type, and an initial value or none. -/
def declaration? (label : Label) : Call → Option (VarType × Option Value)
  | .declare other type initial => if other.same label then some (type, initial) else none
  | .assign _ _ => none

/-- The value that a call assigns to the variable of a label. -/
def assigned? (label : Label) : Call → Option Value
  | .declare _ _ _ => none
  | .assign other value => if other.same label then some value else none

end Call

/-- The value that a variable is declared with: an initial value is brought to its type, and without
one there is no value yet. -/
def declaredValue (type : VarType) : Option Value → Except Fault Value
  | none => .ok .absent
  | some initial => initial.convert type

/-- Make a call: how it goes, and the store that it leaves. -/
def perform (store : Store) (call : Call) : Except Failure Unit × Store :=
  match call.request store with
  | .ok next => (.ok (), next)
  | .error failure => (.error failure, store)

/-- The store after some calls, whether or not they succeed. -/
def replay (store : Store) : List Call → Store
  | [] => store
  | call :: rest => (store.perform call).2.replay rest

/-- Those of some calls that succeed, when all of them are made in turn. -/
def accepted (store : Store) : List Call → List Call
  | [] => []
  | call :: rest =>
    match store.perform call with
    | (.ok (), next) => call :: next.accepted rest
    | (.error _, next) => next.accepted rest

/-- The labels that the calls of a history declare, in order. -/
def declaredLabels (history : List Call) : List Label :=
  history.filterMap Call.declared?

/-- What the first call of a history that declares a label declares it with. -/
def declarationOf (history : List Call) (label : Label) : Option (VarType × Option Value) :=
  history.findSome? (Call.declaration? label)

/-- The value that the last call of a history that assigns to a label assigns. -/
def lastAssigned (history : List Call) (label : Label) : Option Value :=
  history.reverse.findSome? (Call.assigned? label)

/-- The value that a history gives to the variable of a label: the one assigned last, or else the
one that it was declared with. -/
def valueAfter (history : List Call) (label : Label) : Except Fault Value :=
  match lastAssigned history label, declarationOf history label with
  | some value, _ => .ok value
  | none, some (type, initial) => declaredValue type initial
  | none, none => .error (.undeclaredVariable label.text)

variable {store next : Store} {label other : Label} {history : List Call} {call : Call}

section Append

variable {type : VarType} {initial : Option Value} {value : Value}

/-- A declaration adds its label to those that a history declares. -/
@[simp] theorem declaredLabels_declare :
    declaredLabels (history ++ [.declare label type initial]) =
      declaredLabels history ++ [label] := by
  simp [declaredLabels, Call.declared?]

/-- An assignment adds no label to those that a history declares. -/
@[simp] theorem declaredLabels_assign :
    declaredLabels (history ++ [.assign label value]) = declaredLabels history := by
  simp [declaredLabels, List.filterMap_cons, Call.declared?]

/-- A declaration counts for the labels that are not declared yet. -/
@[simp] theorem declarationOf_declare :
    declarationOf (history ++ [.declare label type initial]) other =
      (declarationOf history other).or
        (if label.same other then some (type, initial) else none) := by
  simp only [declarationOf, List.findSome?_append, List.findSome?_singleton, Call.declaration?]

/-- An assignment declares nothing. -/
@[simp] theorem declarationOf_assign :
    declarationOf (history ++ [.assign label value]) other = declarationOf history other := by
  simp [declarationOf, List.findSome?_append, List.findSome?_singleton, Call.declaration?]

/-- A declaration assigns nothing. -/
@[simp] theorem lastAssigned_declare :
    lastAssigned (history ++ [.declare label type initial]) other =
      lastAssigned history other := by
  simp [lastAssigned, List.findSome?_cons, Call.assigned?]

/-- An assignment is the last one to the labels that call its variable. -/
@[simp] theorem lastAssigned_assign :
    lastAssigned (history ++ [.assign label value]) other =
      if label.same other then some value else lastAssigned history other := by
  simp only [lastAssigned, List.reverse_append, List.reverse_singleton, List.singleton_append,
    List.findSome?_cons, Call.assigned?]
  -- The latest assignment is looked at first.
  split
  · rename_i found
    split at found <;> simp_all
  · rename_i found
    split at found <;> simp_all

end Append

/-- Labels that call the same variable are told the same about. -/
theorem view_of_same (called : label.same other = true) : store.view label = store.view other := by
  simp only [Label.same, beq_iff_eq] at called
  simp only [view, find?, Label.same, called]

/-- The value that a typed variable starts with is the one it is declared with. -/
theorem initialValue_known (type : VarType) (initial : Option Value) :
    initialValue (.known type) (initial.map .value) = liftFault (declaredValue type initial) := by
  cases initial <;> rfl

/-- A declaration succeeds for a free label, with a value that can be brought to the type. -/
theorem declare_eq_ok_iff {type : VarType} {initial : Option Value} :
    (Call.declare label type initial).request store = .ok next ↔
      store.view label = none ∧ ∃ value, declaredValue type initial = .ok value ∧
        next = store.add label (.known type) value := by
  rw [Call.request, declare_eq]
  -- The label is looked up before the value is made.
  cases told : store.view label with
  | some found => simp [startingValue, Except.map]
  | none =>
    rw [startingValue, initialValue_known]
    cases declaredValue type initial with
    | error fault => simp [liftFault, Except.map]
    | ok value => simp [liftFault, Except.map, eq_comm]

/-- An assignment succeeds for a variable of the kind of the value. -/
theorem assign_eq_ok_iff {value : Value} :
    (Call.assign label value).request store = .ok next ↔
      (∃ type held, store.view label = some (.known type, held) ∧ value.kind = type.kind) ∧
        next = store.set label value := by
  rw [Call.request, assign_eq]
  cases told : store.view label with
  | none => simp [admittedValue, Except.map]
  | some found =>
    obtain ⟨typing, held⟩ := found
    cases typing with
    | stray node => simp [admittedValue, malformed, Except.map]
    | known type =>
      -- Only the kinds decide whether the value is taken.
      by_cases fits : value.kind = type.kind
      · simp [admittedValue, fits, Except.map, eq_comm]
      · simp [admittedValue, fits, Except.map]

/-- A store and the calls that have succeeded on it belong together. -/
structure Records (history : List Call) (store : Store) : Prop where
  /-- The variables stand in the order of their declarations. -/
  order : store.toList.map Variable.label = declaredLabels history
  /-- A label has one declaration if it calls a variable, and none otherwise. -/
  once : ∀ label, (declaredLabels history).countP (·.same label) =
    if (store.view label).isSome then 1 else 0
  /-- A variable is declared as its declaration says. -/
  typed : ∀ label, (store.view label).map Prod.fst =
    (declarationOf history label).map fun declaration => .known declaration.1
  /-- Only a label that calls a variable is assigned to. -/
  backed : ∀ label, store.view label = none → lastAssigned history label = none
  /-- A variable holds the value that the history gives it. -/
  valued : ∀ label typing value, store.view label = some (typing, value) →
    valueAfter history label = .ok value

namespace Records

/-- A store without a history is empty. -/
theorem empty : Records [] empty where
  order := rfl
  once _ := rfl
  typed _ := rfl
  backed _ _ := rfl
  valued _ _ _ told := by cases told

/-- A label that calls no variable has no declaration. -/
theorem undeclared (records : Records history store) (untold : store.view label = none) :
    declarationOf history label = none := by
  have typed := records.typed label
  rw [untold] at typed
  exact Option.map_eq_none_iff.mp typed.symm

/-- A declaration that succeeds is one more call of the history. -/
theorem declare (records : Records history store) {type : VarType} {initial : Option Value}
    (done : (Call.declare label type initial).request store = .ok next) :
    Records (history ++ [.declare label type initial]) next := by
  obtain ⟨fresh, value, starts, rfl⟩ := declare_eq_ok_iff.mp done
  -- A label that calls the new variable has called none before.
  have free : ∀ other, label.same other = true → store.view other = none :=
    fun other called => view_of_same called ▸ fresh
  constructor
  -- The new variable and its label come last on both sides.
  · simp [add, records.order]
  · intro other
    have before := records.once other
    rw [view_add store value fresh]
    by_cases called : label.same other = true
    · simp [called, before, free other called]
    · simp [called, before]
  · intro other
    rw [view_add store value fresh]
    by_cases called : label.same other = true
    · simp [called, records.undeclared (free other called)]
    · simp [called, records.typed other]
  · intro other untold
    rw [view_add store value fresh] at untold
    by_cases called : label.same other = true
    · simp [called] at untold
    · simp only [called, Bool.false_eq_true, if_false] at untold
      simpa using records.backed other untold
  · intro other typing held told
    rw [view_add store value fresh] at told
    by_cases called : label.same other = true
    · -- Nothing has been assigned to it yet, so that it holds what it was declared with.
      simp only [called, if_true, Option.some.injEq, Prod.mk.injEq] at told
      have unassigned := records.backed other (free other called)
      have undeclared := records.undeclared (free other called)
      simp [valueAfter, unassigned, undeclared, called, starts, told.2]
    · simp only [called, Bool.false_eq_true, if_false] at told
      simpa [valueAfter, called] using records.valued other typing held told

/-- An assignment that succeeds is one more call of the history. -/
theorem assign (records : Records history store) {value : Value}
    (done : (Call.assign label value).request store = .ok next) :
    Records (history ++ [.assign label value]) next := by
  obtain ⟨⟨type, held, told, -⟩, rfl⟩ := assign_eq_ok_iff.mp done
  -- No label calls a variable that it has not called before, and none is retyped.
  have typings : ∀ other, ((store.set label value).view other).map Prod.fst =
      (store.view other).map Prod.fst :=
    congrFun (typing?_set store label value)
  have known : ∀ other, ((store.set label value).view other).isSome =
      (store.view other).isSome := by
    intro other
    rw [← Option.isSome_map, typings other, Option.isSome_map]
  constructor
  · rw [declaredLabels_assign, ← records.order, set, List.map_map]
    apply List.map_congr_left
    intro declared _
    simp only [Function.comp_apply]
    split <;> rfl
  · intro other
    rw [known other, declaredLabels_assign, records.once other]
  · intro other
    rw [typings other, declarationOf_assign, records.typed other]
  · intro other untold
    have missing : store.view other = none := by simpa [untold] using known other
    by_cases called : label.same other = true
    · -- The variable that was assigned to is there.
      rw [← view_of_same called, told] at missing
      cases missing
    · simpa [called] using records.backed other missing
  · intro other typing now told'
    rw [view_set] at told'
    by_cases called : label.same other = true
    · -- The last assignment to this variable is the new one.
      simp only [called, if_true, Option.map_eq_some_iff, Prod.mk.injEq] at told'
      obtain ⟨_, -, -, rfl⟩ := told'
      simp [valueAfter, called]
    · simp only [called, Bool.false_eq_true, if_false] at told'
      simpa [valueAfter, called] using records.valued other typing now told'

/-- A call that succeeds is one more call of the history. -/
theorem request (records : Records history store) (done : call.request store = .ok next) :
    Records (history ++ [call]) next := by
  cases call with
  | declare label type initial => exact records.declare done
  | assign label value => exact records.assign done

/-- The calls that succeed are added to the history, in order, and the others leave no trace. -/
theorem replay (records : Records history store) (calls : List Call) :
    Records (history ++ store.accepted calls) (store.replay calls) := by
  induction calls generalizing history store with
  -- Nothing is added to either side.
  | nil => simpa [accepted, Store.replay] using records
  | cons call rest ih =>
    rw [accepted, Store.replay]
    -- Only a call that succeeds becomes part of the history.
    cases done : call.request store with
    | error failure =>
      simp only [perform, done]
      exact ih records
    | ok next =>
      simp only [perform, done]
      rw [List.append_cons]
      exact ih (records.request done)

/-- The value of a variable is the one that the history gives it. -/
theorem get_eq (records : Records history store) (label : Label) :
    store.get label = valueAfter history label := by
  rw [Store.get_eq]
  cases told : store.view label with
  | none => simp [valueAfter, records.backed label told, records.undeclared told]
  | some found => exact (records.valued label found.1 found.2 told).symm

/-- A variable is declared as the history says. -/
theorem typing_eq (records : Records history store) (label : Label) :
    store.typing label =
      match declarationOf history label with
      | some (type, _) => .ok (.known type)
      | none => .error (.undeclaredVariable label.text) := by
  rw [Store.typing_eq]
  have typed := records.typed label
  cases told : store.view label with
  | none => rw [records.undeclared told]
  | some found =>
    -- The declaration in the history has the type that the store has.
    rw [told, Option.map_some, eq_comm, Option.map_eq_some_iff] at typed
    obtain ⟨declaration, declared, same⟩ := typed
    rw [declared]
    exact congrArg Except.ok same.symm

/-- A call is refused for one of four reasons. -/
theorem refusal (records : Records history store) {failure : Failure}
    (refused : call.request store = .error failure) :
    ∃ fault, failure = .fault fault ∧ fault.kind ∈
      [.alreadyDeclared, .invalidConversion, .undeclaredVariable, .typeMismatch] := by
  cases call with
  | declare label type initial =>
    rw [Call.request, declare_eq] at refused
    cases told : store.view label with
    | some found =>
      -- The label is looked up before the initial value is looked at.
      simp only [told, startingValue, Except.map, Except.error.injEq] at refused
      exact ⟨_, refused.symm, by simp [Fault.kind]⟩
    | none =>
      rw [told, startingValue, initialValue_known] at refused
      cases initial with
      | none => simp [declaredValue, liftFault, Except.map] at refused
      | some initial =>
        simp only [declaredValue, Value.convert] at refused
        cases converted : initial.convert? type with
        | some value => simp [converted, liftFault, Except.map] at refused
        | none =>
          simp only [converted, liftFault, Except.map, Except.error.injEq] at refused
          exact ⟨_, refused.symm, by simp [Fault.kind]⟩
  | assign label value =>
    have typed := records.typed label
    rw [Call.request, assign_eq] at refused
    cases told : store.view label with
    | none =>
      simp only [told, admittedValue, Except.map, Except.error.injEq] at refused
      exact ⟨_, refused.symm, by simp [Fault.kind]⟩
    | some found =>
      obtain ⟨typing, held⟩ := found
      -- Every variable of a history is declared as a type.
      rw [told, Option.map_some, eq_comm, Option.map_eq_some_iff] at typed
      obtain ⟨declaration, -, rfl⟩ := typed
      simp only [told, admittedValue] at refused
      split at refused
      · simp [Except.map] at refused
      · simp only [Except.map, Except.error.injEq] at refused
        exact ⟨_, refused.symm, by simp [Fault.kind]⟩

end Records

/-- A step of a run that makes a call leaves the variables that the call leaves, whether or not it
succeeds. -/
theorem Call.step_store (settings : Settings) (call : Call) (world : World) :
    (call.step settings world).2.store = (world.store.perform call).2 := by
  cases call with
  | declare label type initial =>
    simp only [step, perform, request, declareName_run, declare_eq]
    cases starts : startingValue label (.known type) (initial.map .value)
        (world.store.view label) with
    | error failure =>
      cases failure with
      | fault fault =>
        -- Getting over a fault changes no variable.
        simp only [Except.map, recover_run]
        split
        · rfl
        · simp
      | defect defect => rfl
      | unfinished => rfl
    | ok value => simp [Except.map, World.storing]
  | assign label value =>
    simp only [step, perform, request, assignLabel_run]
    cases world.store.assign label (.value value) with
    | error failure => rfl
    | ok next => simp [Datum.toValue, World.storing]

/-- A store is a typed store in which every variable is declared once, and its history decides it.

After any calls on the empty store, of which some succeed and some do not:
- A call that is refused is refused for one of four reasons and leaves the store exactly as it was,
  also as a step of a run.
- A label is contained, has a value and has a type if and only if a declaration of it has succeeded,
  and then exactly one has.
- Its value is the one of the last assignment to it that has succeeded, or else the initial value of
  its declaration brought to its type. It is declared as that type.
- There are as many variables as declarations that have succeeded, in the order of these. -/
theorem replay_decided (calls : List Call) :
    let store := empty.replay calls
    let history := empty.accepted calls
    (∀ call failure, (store.perform call).1 = .error failure →
      (store.perform call).2 = store ∧
      (∃ fault, failure = .fault fault ∧ fault.kind ∈
        [.alreadyDeclared, .invalidConversion, .undeclaredVariable, .typeMismatch]) ∧
      ∀ settings world, world.store = store → (call.step settings world).2.store = store) ∧
    (∀ label,
      (store.contains label ↔ ∃ declared ∈ declaredLabels history, declared.same label) ∧
      (store.contains label ↔ (declaredLabels history).countP (·.same label) = 1) ∧
      (store.contains label ↔ ∃ value, store.get label = .ok value) ∧
      (store.contains label ↔ ∃ typing, store.typing label = .ok typing)) ∧
    (∀ label, store.get label = valueAfter history label ∧
      store.typing label =
        match declarationOf history label with
        | some (type, _) => .ok (.known type)
        | none => .error (.undeclaredVariable label.text)) ∧
    store.size = (declaredLabels history).length ∧
    store.toList.map Variable.label = declaredLabels history := by
  intro store history
  have records : Records history store := Records.empty.replay calls
  refine ⟨fun call failure refused => ?_, fun label => ?_, fun label => ?_, ?_, records.order⟩
  -- The first part says that a refused call leaves no trace, and why it can be refused.
  · -- A call that is refused has no store to go on with.
    have unchanged : call.request store = .error failure ∧ (store.perform call).2 = store := by
      unfold perform at refused ⊢
      cases done : call.request store with
      | error cause => simpa [done] using refused
      | ok next => simp [done] at refused
    refine ⟨unchanged.2, records.refusal unchanged.1, fun settings world held => ?_⟩
    rw [call.step_store, held, unchanged.2]
  · have counted := records.once label
    rw [contains_eq, Store.get_eq, Store.typing_eq]
    -- Whether the label calls a variable decides all of it.
    cases told : store.view label with
    | none =>
      have none : ∀ declared ∈ declaredLabels history, ¬ declared.same label = true := by
        simpa [told, List.countP_eq_zero] using counted
      simpa [told, counted] using none
    | some found =>
      have some : ∃ declared ∈ declaredLabels history, declared.same label = true := by
        rw [← List.countP_pos_iff, counted, told]
        exact Nat.one_pos
      simpa [told, counted] using some
  -- What is told about a label is read off the history.
  · exact ⟨records.get_eq label, records.typing_eq label⟩
  -- The variables stand in the order of their declarations, so that there are as many.
  · rw [← records.order, List.length_map]
    rfl

-- The second declaration and the second assignment are refused, and leave no trace.
example : (empty.replay [.declare (.name "a") .int none, .declare (.name "a") .bool none,
      .assign (.name "a") (.integer 5), .assign (.name "a") (.boolean true)]).toList.map
        (fun declared => (declared.label, declared.value)) = [(.name "a", .integer 5)] := by
  decide

end Store

end Pseudocode
