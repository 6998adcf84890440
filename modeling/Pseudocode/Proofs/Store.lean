import Pseudocode.Store

/-! What declaring and assigning keep: the values fit their types, and no variable is ever lost,
moved, retyped or emptied. -/

namespace Pseudocode

/-- A rounded number is a float. -/
theorem Value.ofDouble?_kind {x : Double} {value : Value}
    (done : Value.ofDouble? x = some value) : value.kind = .float := by
  -- Rounding gives a float or nothing at all.
  obtain ⟨y, -, rfl⟩ := Option.map_eq_some_iff.mp done
  rfl

/-- A text is read as a value of the type that it is brought to. -/
theorem Value.convert?_text_kind {type : VarType} {line : String} {value : Value}
    (done : (Value.text line).convert? type = some value) : value.kind = type.kind := by
  -- Each type has its own way of reading a text.
  cases type with
  | int =>
    obtain ⟨n, -, rfl⟩ := Option.map_eq_some_iff.mp done
    rfl
  | float =>
    obtain ⟨x, -, rounded⟩ := Option.bind_eq_some_iff.mp done
    exact Value.ofDouble?_kind rounded
  | bool =>
    obtain ⟨b, -, rfl⟩ := Option.map_eq_some_iff.mp done
    rfl
  | char =>
    simp only [Value.convert?] at done
    split at done
    · exact Option.some.inj done ▸ rfl
    · cases done
  | string => exact Option.some.inj done ▸ rfl

/-- Bringing a value to a type gives a value of its kind, or none when there was none. -/
theorem Value.convert?_kind {type : VarType} {value converted : Value}
    (done : value.convert? type = some converted) :
    converted = .absent ∨ converted.kind = type.kind := by
  -- The kind of the value comes first, as only a text can be brought to every type.
  cases value with
  | absent =>
    left
    cases type <;> exact (Option.some.inj done).symm
  | text line => exact .inr (convert?_text_kind done)
  | integer n =>
    right
    cases type with
    | int => exact Option.some.inj done ▸ rfl
    | float => exact Value.ofDouble?_kind done
    | bool | char | string => cases done
  | float x =>
    right
    cases type with
    | float => exact Option.some.inj done ▸ rfl
    | int | bool | char | string => cases done
  | boolean b =>
    right
    cases type with
    | bool => exact Option.some.inj done ▸ rfl
    | int | float | char | string => cases done
  | character c =>
    right
    cases type with
    | char | string => exact Option.some.inj done ▸ rfl
    | int | float | bool => cases done

/-- The value of a variable is one of its type, if it has any. -/
def Variable.Fits (declared : Variable) : Prop :=
  declared.value = .absent ∨
    ∃ type, declared.typing = .known type ∧ declared.value.kind = type.kind

/-- A later state of the same variable: it has the same label and type, and a value if it had one
before. -/
structure Variable.Continues (before after : Variable) : Prop where
  /-- It is called by the same label. -/
  label : after.label = before.label
  /-- It is declared as the same. -/
  typing : after.typing = before.typing
  /-- It has not lost its value. -/
  value : before.value ≠ .absent → after.value ≠ .absent

/-- A variable continues itself. -/
theorem Variable.Continues.refl (declared : Variable) : declared.Continues declared :=
  -- Nothing has to be shown, since nothing has changed.
  ⟨rfl, rfl, id⟩

/-- What continues a later state continues an earlier one. -/
theorem Variable.Continues.trans {first second third : Variable} (early : first.Continues second)
    (late : second.Continues third) : first.Continues third :=
  ⟨late.label.trans early.label, late.typing.trans early.typing, late.value ∘ early.value⟩

namespace Store

/-- A store in order: every value fits its type, and no two labels call the same variable. -/
structure Sound (store : Store) : Prop where
  /-- Every value fits. -/
  fits : ∀ declared ∈ store.toList, declared.Fits
  /-- Every label calls one variable. -/
  distinct : store.toList.Pairwise fun first second => first.label.same second.label = false

/-- A store has grown into another: every variable is continued at its place. -/
def Grows (before after : Store) : Prop :=
  ∀ (place : Nat) (old : Variable), before.toList[place]? = some old →
    ∃ new, after.toList[place]? = some new ∧ old.Continues new

/-- One change of a store, or none. -/
inductive Step (store : Store) : Store → Prop where
  /-- Nothing changes. -/
  | stays : Step store store
  /-- A variable is declared. -/
  | declares {label : Label} {typing : Typing} {initial : Option Datum} {next : Store}
    (done : store.declare label typing initial = .ok next) : Step store next
  /-- A variable is assigned. -/
  | assigns {label : Label} {datum : Datum} {next : Store}
    (done : store.assign label datum = .ok next) : Step store next

variable {store next : Store} {label : Label} {typing : Typing}

/-- The empty store is in order. -/
theorem Sound.empty : empty.Sound :=
  ⟨by simp [Store.empty], .nil⟩

/-- A store grows into itself. -/
theorem Grows.refl (store : Store) : store.Grows store :=
  fun _ old here => ⟨old, here, .refl old⟩

/-- A store that has grown twice has grown. -/
theorem Grows.trans {first second third : Store} (early : first.Grows second)
    (late : second.Grows third) : first.Grows third := by
  intro place old here
  -- The place is kept both times, so that the same place is looked at in all three.
  obtain ⟨middle, there, continued⟩ := early place old here
  obtain ⟨new, last, continued'⟩ := late place middle there
  exact ⟨new, last, continued.trans continued'⟩

/-- A label that calls no variable differs from the labels of all of them. -/
theorem same_eq_false_of_not_contains (fresh : ¬ store.contains label = true) :
    ∀ declared ∈ store.toList, declared.label.same label = false := by
  -- A label calls a variable if and only if one with this label is found.
  simpa [Store.contains, Store.find?] using fresh

/-- The value that a variable starts with fits what it is declared as. -/
theorem initialValue_fits {initial : Option Datum} {value : Value}
    (found : initialValue typing initial = .ok value) :
    Variable.Fits ⟨label, typing, value⟩ := by
  -- Without an initial value the variable holds nothing, and that always fits.
  unfold initialValue at found
  split at found
  · exact .inl (Except.ok.inj found).symm
  · cases found
  · -- The initial value is brought to the type, so the type must be one.
    split at found
    · rename_i given _ type
      unfold Value.convert at found
      cases converted : given.convert? type with
      | none => simp [converted, liftFault] at found
      | some start =>
        simp only [converted, liftFault, Except.ok.injEq] at found
        rcases Value.convert?_kind converted with absent | fits
        · exact .inl (by rw [← found, absent])
        · exact .inr ⟨type, rfl, by rw [← found, fits]⟩
    · cases found

/-- A declaration puts one variable that fits after all others, under a label of its own. -/
theorem declare_eq_ok {initial : Option Datum}
    (done : store.declare label typing initial = .ok next) :
    ∃ value, next.toList = store.toList ++ [⟨label, typing, value⟩] ∧
      Variable.Fits ⟨label, typing, value⟩ ∧
      ∀ declared ∈ store.toList, declared.label.same label = false := by
  -- A label that is taken is refused, and so is an initial value that does not fit.
  unfold Store.declare at done
  split at done
  · cases done
  · rename_i fresh
    cases found : initialValue typing initial with
    | error failure => simp [found, Except.map] at done
    | ok value =>
      simp only [found, Except.map, Except.ok.injEq] at done
      exact ⟨value, by rw [← done], initialValue_fits found, same_eq_false_of_not_contains fresh⟩

/-- An assignment gives a value to the variables of its label, which are of its kind. -/
theorem assign_eq_ok {datum : Datum} (done : store.assign label datum = .ok next) :
    ∃ value found type, next = store.set label value ∧ store.find? label = some found ∧
      found.typing = .known type ∧ value.kind = type.kind := by
  -- All but one of the answers of the store are failures, and that one has both kinds.
  unfold Store.assign at done
  split at done
  · cases done
  · rename_i found here
    split at done
    · cases done
    · cases done
    · rename_i value type known
      split at done
      · rename_i fits
        exact ⟨value, found, type, (Except.ok.inj done).symm, here, known, fits⟩
      · cases done

/-- Giving a value to a label changes each variable at its own place. -/
theorem set_getElem? (value : Value) (place : Nat) :
    (store.set label value).toList[place]? = store.toList[place]?.map fun declared =>
      if declared.label.same label then { declared with value := value } else declared :=
  List.getElem?_map

/-- In a store in order, a variable that a label calls is the one that is found under it. -/
theorem Sound.find?_eq (sound : store.Sound) {declared : Variable}
    (member : declared ∈ store.toList) (called : declared.label.same label = true) :
    store.find? label = some declared := by
  obtain ⟨before, after, split⟩ := List.append_of_mem member
  have distinct := sound.distinct
  rw [split, List.pairwise_append] at distinct
  -- None of those before it is called so, because their labels differ from its own.
  have passed : ∀ other ∈ before, ¬ other.label.same label = true := by
    intro other earlier calls
    have apart := distinct.2.2 other earlier declared (by simp)
    simp only [Label.same, beq_iff_eq, beq_eq_false_iff_ne] at called calls apart
    exact apart (calls.trans called.symm)
  rw [Store.find?, split, List.find?_append, List.find?_eq_none.mpr passed, Option.none_or]
  exact List.find?_cons_of_pos called

/-- Every change grows the store. -/
theorem Step.grows (step : store.Step next) : store.Grows next := by
  cases step with
  | stays => exact .refl store
  | declares done =>
    obtain ⟨value, appended, -⟩ := declare_eq_ok done
    -- A new variable stands behind all others, so that no place is lost.
    intro place old here
    obtain ⟨inside, -⟩ := List.getElem?_eq_some_iff.mp here
    exact ⟨old, by rw [appended, List.getElem?_append_left inside, here], .refl old⟩
  | assigns done =>
    obtain ⟨value, found, type, rfl, -, -, kind⟩ := assign_eq_ok done
    -- The new value is of the kind of a type, so there is one.
    have present : value ≠ .absent := by
      rintro rfl
      cases type <;> cases kind
    intro place old here
    refine ⟨_, by rw [set_getElem?, here]; rfl, ?_⟩
    dsimp only
    split
    · exact ⟨rfl, rfl, fun _ => present⟩
    · exact .refl old

/-- Every change keeps a store in order. -/
theorem Step.sound (step : store.Step next) (sound : store.Sound) : next.Sound := by
  cases step with
  | stays => exact sound
  | declares done =>
    -- The new variable fits, and its label is one that no other has.
    obtain ⟨value, appended, fits, fresh⟩ := declare_eq_ok done
    constructor
    · rw [appended]
      intro declared member
      rcases List.mem_append.mp member with member | member
      · exact sound.fits declared member
      · exact List.mem_singleton.mp member ▸ fits
    · rw [appended, List.pairwise_append]
      refine ⟨sound.distinct, List.pairwise_singleton _ _, fun first member second last => ?_⟩
      exact List.mem_singleton.mp last ▸ fresh first member
  | assigns done =>
    obtain ⟨value, found, type, rfl, here, known, kind⟩ := assign_eq_ok done
    constructor
    · intro declared member
      obtain ⟨before, earlier, rfl⟩ := List.mem_map.mp member
      split
      · rename_i called
        -- A variable of this label is the one whose type was compared with the value.
        have same := (sound.find?_eq earlier called).symm.trans here
        exact .inr ⟨type, by rw [Option.some.inj same, known], kind⟩
      · exact sound.fits before earlier
    · -- No label changes, so the labels stay apart.
      refine List.pairwise_map.mpr (sound.distinct.imp fun {first second} apart => ?_)
      split <;> split <;> exact apart

end Store

end Pseudocode
