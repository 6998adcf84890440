import Pseudocode.Eval.Expr
import Pseudocode.Proofs.Syntax.Names

/-! What a store tells about a label, and how declaring and assigning change that. All else that a
run learns from its variables follows from it. -/

namespace Pseudocode

namespace Store

/-- What a store tells about a label: what its variable is declared as, and the current value. A
label that calls no variable has none. -/
def view (store : Store) (label : Label) : Option (Typing × Value) :=
  (store.find? label).map fun found => (found.typing, found.value)

/-- What the variable of a label is declared as, if the label calls one. -/
def typing? (store : Store) (label : Label) : Option Typing :=
  (store.view label).map Prod.fst

/-- The store with one more variable, after all others. -/
def add (store : Store) (label : Label) (typing : Typing) (value : Value) : Store :=
  ⟨store.toList ++ [⟨label, typing, value⟩]⟩

/-- The value that a new variable starts with, unless its label is taken. -/
def startingValue (label : Label) (typing : Typing) (initial : Option Datum) :
    Option (Typing × Value) → Except Failure Value
  -- A variable cannot be declared twice, whatever the value.
  | some _ => .error (.fault (.alreadyDeclared label.text))
  | none => initialValue typing initial

/-- The value that a datum gives to a variable, if the variable takes it. -/
def admittedValue (label : Label) (datum : Datum) :
    Option (Typing × Value) → Except Failure Value
  -- Nothing can be assigned to what has not been declared.
  | none => .error (.fault (.undeclaredVariable label.text))
  | some (typing, _) =>
    match datum, typing with
    | .stray node, _ => malformed node
    | .value _, .stray node => malformed node
    | .value value, .known type =>
      -- Nothing is converted here: only a value of the very kind is taken.
      if value.kind = type.kind then .ok value
      else .error (.fault (.typeMismatch (.assignment value.kind label.text type)))

variable {label other : Label} {typing : Typing}

/-- The value of a variable is part of what the store tells. -/
theorem get_eq (store : Store) (label : Label) :
    store.get label =
      match store.view label with
      | some (_, value) => .ok value
      | none => .error (.undeclaredVariable label.text) := by
  simp only [get, lookup, view]
  cases store.find? label <;> rfl

/-- What a variable is declared as is part of what the store tells. -/
theorem typing_eq (store : Store) (label : Label) :
    store.typing label =
      match store.view label with
      | some (typing, _) => .ok typing
      | none => .error (.undeclaredVariable label.text) := by
  simp only [Store.typing, lookup, view]
  cases store.find? label <;> rfl

/-- A label is contained when something is told about it. -/
theorem contains_eq (store : Store) (label : Label) :
    store.contains label = (store.view label).isSome := by
  simp only [contains, view, Option.isSome_map]

/-- A label that is taken has no value to start with, and any other one has the initial value. -/
theorem startingValue_eq (store : Store) (label : Label) (typing : Typing)
    (initial : Option Datum) :
    startingValue label typing initial (store.view label) =
      if store.contains label then .error (.fault (.alreadyDeclared label.text))
      else initialValue typing initial := by
  rw [contains_eq]
  cases store.view label <;> rfl

/-- What the store tells about a label decides whether and how it is declared. -/
theorem declare_eq (store : Store) (label : Label) (typing : Typing) (initial : Option Datum) :
    store.declare label typing initial =
      (startingValue label typing initial (store.view label)).map (store.add label typing) := by
  unfold declare contains view
  -- A label that calls a variable is taken, and any other is free.
  split
  · rename_i taken
    obtain ⟨found, here⟩ := Option.isSome_iff_exists.mp taken
    rw [here]
    rfl
  · rename_i free
    rw [Option.not_isSome_iff_eq_none.mp free]
    rfl

/-- Only a label that calls no variable is given a value to start with. -/
theorem view_eq_none_of_startingValue {store : Store} {initial : Option Datum} {value : Value}
    (starts : startingValue label typing initial (store.view label) = .ok value) :
    store.view label = none := by
  cases told : store.view label with
  | none => rfl
  | some found =>
    -- A label that is taken would have been refused.
    rw [told] at starts
    cases starts

/-- What the store tells about a label decides what may be assigned to it. -/
theorem assign_eq (store : Store) (label : Label) (datum : Datum) :
    store.assign label datum =
      (admittedValue label datum (store.view label)).map (store.set label) := by
  simp only [assign, view]
  cases store.find? label with
  -- Neither the store nor what it tells has the variable.
  | none => rfl
  | some found =>
    obtain ⟨_, declared, _⟩ := found
    simp only [Option.map_some, admittedValue]
    -- The value is stored only when the kinds are the same; all other answers are failures.
    cases datum with
    | stray node => rfl
    | value value =>
      cases declared with
      | stray node => rfl
      | known type =>
        dsimp only
        split <;> rfl

/-- A new variable is told about under its own label, and nothing else changes. -/
theorem view_add (store : Store) (value : Value) (fresh : store.view label = none) :
    (store.add label typing value).view other =
      if label.same other then some (typing, value) else store.view other := by
  simp only [view, find?, add, List.find?_append, List.find?_singleton]
  split
  · -- The variables before it have other labels, so that the search gets to it.
    rename_i called
    have unfound : store.toList.find? (·.label.same other) = none := by
      simp only [view, find?, Option.map_eq_none_iff, List.find?_eq_none] at fresh ⊢
      intro declared member calls
      simp only [Label.same, beq_iff_eq] at called calls
      exact fresh declared member (by simp [Label.same, calls, called])
    simp [unfound]
  · -- Any other label is looked for as before.
    simp

/-- A new variable has the value that it starts with. -/
theorem get_add (store : Store) (value : Value) (fresh : store.view label = none) :
    (store.add label typing value).get label = .ok value := by
  rw [get_eq, view_add store value fresh, if_pos (by simp [Label.same])]

/-- A value is told about under its label, and nothing else changes. -/
theorem view_set (store : Store) (value : Value) :
    (store.set label value).view other =
      if label.same other then (store.view other).map fun told => (told.1, value)
      else store.view other := by
  simp only [view, find?, set, List.find?_map]
  -- Giving a value does not change what a variable is called by.
  have keeps : ((fun declared : Variable => declared.label.same other) ∘
      fun declared : Variable =>
        if declared.label.same label then { declared with value := value } else declared) =
      fun declared => declared.label.same other := by
    funext declared
    simp only [Function.comp_apply]
    split <;> rfl
  rw [keeps]
  cases found : store.toList.find? (·.label.same other) with
  | none => simp
  | some declared =>
    -- The variable that is found has the key of the label that was looked for.
    have called := List.find?_some found
    simp only [Label.same, beq_iff_eq] at called
    simp only [Label.same, Option.map_some, called]
    by_cases same : label.key = other.key
    · simp [same]
    · simp [same, Ne.symm same]

/-- Giving a variable a value does not change what any is declared as. -/
theorem typing?_set (store : Store) (label : Label) (value : Value) :
    (store.set label value).typing? = store.typing? := by
  funext other
  -- Under the label itself only the value changes, and under any other one nothing.
  rw [typing?, view_set, typing?]
  split
  · rw [Option.map_map]
    rfl
  · rfl

/-- Two stores tell the same about all labels of some kind. -/
def Agrees (allowed : Label → Prop) (store store' : Store) : Prop :=
  ∀ label, allowed label → store'.view label = store.view label

namespace Agrees

variable {allowed : Label → Prop} {store store' : Store}

/-- A variable that is new to both stores is told about by both. -/
theorem add (agrees : Agrees allowed store store') (permitted : allowed label) (value : Value)
    (fresh : store.view label = none) :
    Agrees allowed (store.add label typing value) (store'.add label typing value) := by
  intro other occurs
  -- What is free in one store is free in the other.
  have fresh' : store'.view label = none := (agrees label permitted).trans fresh
  rw [view_add store value fresh, view_add store' value fresh', agrees other occurs]

/-- A value that is given in both stores is told about by both. -/
theorem set (agrees : Agrees allowed store store') (value : Value) :
    Agrees allowed (store.set label value) (store'.set label value) := by
  intro other occurs
  rw [view_set, view_set, agrees other occurs]

end Agrees

end Store

namespace Expr

variable {store store' : Store}

/-- An expression depends only on what is told about its labels. -/
theorem eval_congr (expr : Expr)
    (agrees : ∀ label ∈ expr.labels, store'.view label = store.view label) :
    expr.eval store' = expr.eval store := by
  -- Variables are read from the store, and everything else comes from the parts.
  induction expr with
  | literal content => rfl
  | ident label =>
    have same := agrees label (by simp [labels])
    simp only [eval, Store.get_eq, same]
  | newline => rfl
  | unary op operand ih => simp only [eval, ih agrees]
  | binary op left right ihLeft ihRight =>
    simp only [labels, List.forall_mem_append] at agrees
    -- Logic has an equation of its own, as it may leave its right side alone.
    cases op <;> simp only [eval, ihLeft agrees.1, ihRight agrees.2]
  | stray defect => rfl

/-- A display list depends only on what is told about its labels. -/
theorem evalDisplay_congr (expr : Expr)
    (agrees : ∀ label ∈ expr.labels, store'.view label = store.view label) :
    expr.evalDisplay store' = expr.evalDisplay store := by
  -- Only joins are gone down into; everything else is an ordinary expression.
  induction expr with
  | binary op left right ihLeft ihRight =>
    cases op with
    | join op =>
      simp only [labels, List.forall_mem_append] at agrees
      simp only [evalDisplay, ihLeft agrees.1, ihRight agrees.2]
    | arith op => exact eval_congr _ agrees
    | compare op => exact eval_congr _ agrees
    | logic op => exact eval_congr _ agrees
    | unknown symbol => exact eval_congr _ agrees
  | literal content => exact eval_congr _ agrees
  | ident label => exact eval_congr _ agrees
  | newline => exact eval_congr _ agrees
  | unary op operand => exact eval_congr _ agrees
  | stray defect => exact eval_congr _ agrees

end Expr

end Pseudocode
