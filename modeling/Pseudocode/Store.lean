import Pseudocode.Failure
import Pseudocode.Value.Convert

/-! The variables of a run: declared once, typed, and kept in the order of their declaration. -/

namespace Pseudocode

/-- A declared variable. -/
structure Variable where
  /-- The label that the variable was declared under. -/
  label : Label
  /-- What the variable was declared as. -/
  typing : Typing
  /-- The current value. -/
  value : Value

/-- The variables of a run, in the order of their declaration. -/
structure Store where
  /-- The declared variables, the first declared first. -/
  toList : List Variable

namespace Store

/-- No variables. -/
def empty : Store := ⟨[]⟩

/-- The variable that a label calls. -/
def find? (store : Store) (label : Label) : Option Variable :=
  -- Two labels may call the same variable without being the same data.
  store.toList.find? (·.label.same label)

/-- Whether a label calls a variable. -/
def contains (store : Store) (label : Label) : Bool :=
  (store.find? label).isSome

/-- The number of declared variables. -/
def size (store : Store) : Nat :=
  store.toList.length

/-- The variable of a label that must call one. -/
def lookup (store : Store) (label : Label) : Except Fault Variable :=
  match store.find? label with
  | some found => .ok found
  | none => .error (.undeclaredVariable label.text)

/-- The value of a declared variable. -/
def get (store : Store) (label : Label) : Except Fault Value :=
  (store.lookup label).map (·.value)

/-- What a variable is declared as. -/
def typing (store : Store) (label : Label) : Except Fault Typing :=
  (store.lookup label).map (·.typing)

/-- The value that a variable starts with: that of its initial datum, brought to its type. Without
an initial datum it has none, and then its type does not matter. -/
def initialValue (typing : Typing) : Option Datum → Except Failure Value
  -- Nothing has to be brought to a type, so that a stray one is not noticed.
  | none => .ok .absent
  | some (.stray node) => malformed node
  | some (.value initial) =>
    match typing with
    | .known type => liftFault (initial.convert type)
    | .stray node => malformed node

/-- Declare a new variable after all others. -/
def declare (store : Store) (label : Label) (typing : Typing) (initial : Option Datum) :
    Except Failure Store :=
  -- A name that is taken is noticed before its initial value is looked at.
  if store.contains label then .error (.fault (.alreadyDeclared label.text))
  else (initialValue typing initial).map fun value => ⟨store.toList ++ [⟨label, typing, value⟩]⟩

/-- Give a variable a value, leaving all other variables alone. -/
def set (store : Store) (label : Label) (value : Value) : Store :=
  -- There is one variable at most that the label calls.
  ⟨store.toList.map fun v => if v.label.same label then { v with value := value } else v⟩

/-- Give a declared variable a value of its own kind. -/
def assign (store : Store) (label : Label) (datum : Datum) : Except Failure Store :=
  match store.find? label with
  -- The label is looked at first, then the value, and the type of the variable last.
  | none => .error (.fault (.undeclaredVariable label.text))
  | some found =>
    match datum, found.typing with
    | .stray node, _ => malformed node
    | .value _, .stray node => malformed node
    | .value value, .known type =>
      -- Assigning converts nothing, so that the kinds must agree.
      if value.kind = type.kind then .ok (store.set label value)
      else .error (.fault (.typeMismatch (.assignment value.kind label.text type)))

end Store

end Pseudocode
