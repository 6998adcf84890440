import Pseudocode.Interchange.NodeJson
import Pseudocode.Proofs.Exec.Linked
import Pseudocode.Proofs.Numeric.Widening
import Pseudocode.Proofs.Store

/-! The variables of a run are in order in every world that the run passes through, however it
ends. -/

namespace Pseudocode

/-- The data that a value of each kind may have. A whole number has 32 bits, a float is finite and
has a 32-bit number's value, and a character is one. -/
def Kind.Allows : Kind → Json → Prop
  | .integer, .int n => -2147483648 ≤ n ∧ n ≤ 2147483647
  | .float, .float (.finite x) => ∃ y : Single, x.value = y.value
  | .boolean, .bool _ => True
  | .character, .str s => s.length = 1
  | .text, .str _ => True
  | .absent, .null => True
  | _, _ => False

/-- Every value has data that its kind allows. -/
theorem Value.allows_data (value : Value) : value.kind.Allows value.data := by
  -- The type of values leaves no room for other data; what is left is to name the bounds.
  cases value with
  | integer n =>
    have low := n.le_toInt
    have high := n.toInt_lt
    simp only [kind, data, Kind.Allows]
    omega
  | float x =>
    -- The data is the wider number, which is exactly the narrow one.
    obtain ⟨y, finite, same⟩ := Single.toDouble_exact x
    simp only [kind, data, finite, Kind.Allows]
    exact ⟨x, same⟩
  | character c => exact String.length_singleton
  | boolean b => trivial
  | text s => trivial
  | absent => trivial

/-- A world follows another with one change of the variables at most. -/
def World.Follows (before after : World) : Prop :=
  before.store.Step after.store

/-- A world with the same variables follows. -/
theorem World.follows_of_store_eq {before after : World} (same : after.store = before.store) :
    before.Follows after := by
  rw [Follows, same]
  exact .stays

/-- The frame of all that leaves the variables alone. -/
def sameStore : Frame where
  Rel before after := after.store = before.store
  refl _ := rfl
  trans first second := second.trans first
  noting _ _ _ := World.noting_store ..
  writing _ _ := rfl
  reading _ := rfl

/-- A step that leaves the variables alone leads to a world that follows. -/
theorem Frame.Keeps.follows {α : Type} {step : Exec α} (keeps : sameStore.Keeps step) :
    (Walk.atom step).Linked World.Follows :=
  -- Nothing that such a step changes is a variable.
  .atom fun world => World.follows_of_store_eq (keeps world)

section Steps

variable {settings : Settings}

/-- Getting over a fault leaves the variables alone. -/
theorem recover_store (fault : Fault) : sameStore.Keeps (recover settings fault) := by
  intro world
  rw [recover_run]
  -- A fault that is raised again changes nothing, and a report is not about variables.
  split
  · rfl
  · exact World.reporting_store ..

/-- A declaration makes one change, if it does not fail. -/
theorem declareName_follows (typing : Typing) (initial : Option Datum) (name : Target)
    (world : World) : world.Follows (declareName settings typing initial name world).2 := by
  -- What is no name fails before the variables are looked at.
  cases name with
  | stray defect => exact .stays
  | named label =>
    rw [declareName_run]
    cases starts : Store.startingValue label typing initial (world.store.view label) with
    | error failure =>
      cases failure with
      | fault fault => exact World.follows_of_store_eq (recover_store fault world)
      | defect defect => exact .stays
      | unfinished => exact .stays
    | ok value =>
      have declares : world.store.Step (world.store.add label typing value) := by
        apply Store.Step.declares
        rw [Store.declare_eq, starts]
        rfl
      -- After the declaration only the trace may grow.
      simpa [World.Follows, World.storing] using declares

/-- An assignment makes one change, if it does not fail. -/
theorem assignLabel_follows (how : Update) (datum : Datum) (label : Label) (world : World) :
    world.Follows (assignLabel settings how datum label world).2 := by
  rw [assignLabel_run]
  cases done : world.store.assign label datum with
  | error failure => exact .stays
  -- The stores are those before and after.
  | ok store =>
    -- The assignment has been made, whether or not the value can be traced.
    have assigns : world.store.Step store := .assigns done
    dsimp only
    cases datum.toValue with
    | error failure => exact assigns
    | ok value => simpa [World.Follows, World.storing] using assigns

/-- Assigning a name makes one change, if it does not fail. -/
theorem assignName_follows (datum : Datum) (name : Target) (world : World) :
    world.Follows (assignName settings datum name world).2 := by
  -- What is no name fails before anything else.
  cases name with
  | stray defect => exact .stays
  | named label => exact assignLabel_follows .assign datum label world

/-- Scanning a name makes one change, if it does not fail. -/
theorem scanName_follows (name : Target) (world : World) :
    world.Follows (scanName settings name world).2 := by
  cases name with
  | stray defect => exact .stays
  | named label =>
    simp only [scanName, Target.label, Exec.bind_run, ofResult_run, Exec.get_run, nextLine_run]
    -- Without a type no line is read.
    cases liftFault (world.store.typing label) with
    | error failure => exact .stays
    | ok typing =>
      -- Reading a line changes the console only.
      dsimp only
      cases readTyped world.console.readLine.1 typing with
      | error failure => exact .stays
      | ok value => exact assignLabel_follows .scan (.value value) label world.reading

end Steps

/-- In all runs each world follows the one before it. -/
def followingRuns (settings : Settings) : Congruence settings settings .any where
  Rel walk _ := walk.Linked World.Follows
  pure := .pure
  bind := .bind
  contain := .contain fun fault => (recover_store fault).follows
  -- A loop without turns leaves the world as it is.
  loop tests bodies := .loop (fun _ => .stays) tests bodies settings.turns
  start _ := (Frame.Keeps.note _).follows
  evaluate _ := (Frame.Keeps.evaluate _).follows
  declareName _ _ _ := .atom (declareName_follows _ _ _)
  assignName _ _ := .atom (assignName_follows _ _)
  scanName _ := .atom (scanName_follows _)
  condition _ := (Frame.Keeps.condition _ _).follows
  subject _ := (Frame.Keeps.switchSubject _).follows
  matchCase _ _ := (Frame.Keeps.matchCase _ _).follows
  showValue _ := (Frame.Keeps.showValue _).follows
  missingBreak := (Frame.Keeps.raise _).follows
  misplacedBreak := (recover_store _).follows
  stray _ := (Frame.Keeps.throw _).follows

/-- Each world in the history of a run follows the one before it. -/
theorem Program.history_isChain (settings : Settings) (program : Program) (world : World) :
    -- All statements are allowed to be in the program.
    (program.history settings world).IsChain World.Follows :=
  (followingRuns settings).program program (blockUses_any program.body) world

/-- When each world follows the one before it, all stores are in order if the first one is. -/
theorem sound_of_isChain {first : World} {later : List World}
    (chain : (first :: later).IsChain World.Follows) (sound : first.store.Sound) :
    ∀ world ∈ first :: later, world.store.Sound := by
  -- The chain is followed from its first world, which hands its order on to the second.
  induction later generalizing first with
  | nil => simpa using sound
  | cons second rest ih =>
    obtain ⟨follows, onward⟩ := List.isChain_cons_cons.mp chain
    intro world member
    rcases List.mem_cons.mp member with same | member
    · exact same ▸ sound
    · exact ih onward (Store.Step.sound follows sound) world member

/-- When each world follows the one before it, the variables have grown from any of them to any
later one. -/
theorem pairwise_grows_of_isChain {worlds : List World} (chain : worlds.IsChain World.Follows) :
    worlds.Pairwise fun earlier later => earlier.store.Grows later.store := by
  have : Trans (fun earlier later : World => earlier.store.Grows later.store)
      (fun earlier later : World => earlier.store.Grows later.store)
      (fun earlier later : World => earlier.store.Grows later.store) :=
    ⟨fun early late => early.trans late⟩
  -- Growing is transitive, so that what holds of neighbours holds of all.
  exact List.isChain_iff_pairwise.mp (chain.imp fun _ _ follows => Store.Step.grows follows)

/-- In every world of a run, whichever program is run with whichever settings and input and however
it ends, all variables hold nothing or a value of their type, all values have the data that
their kind allows, and so have those that expressions give there. No variable is lost on the way,
moved, retyped, or emptied again, and no world is passed over in between. -/
theorem Program.history_sound (settings : Settings) (program : Program) (input : List String) :
    (program.history settings (World.start input)).head? = some (World.start input) ∧
    (program.history settings (World.start input)).getLast? =
      some (program.run settings (World.start input)).2 ∧
    (program.history settings (World.start input)).IsChain World.Follows ∧
    (∀ world ∈ program.history settings (World.start input),
      world.store.Sound ∧
      (∀ declared ∈ world.store.toList, declared.value.kind.Allows declared.value.data) ∧
      ∀ (expr : Expr) (value : Value),
        expr.eval world.store = .ok (.value value) ∨
          expr.evalDisplay world.store = .ok (.value value) →
        value.kind.Allows value.data) ∧
    (program.history settings (World.start input)).Pairwise fun earlier later =>
      earlier.store.Grows later.store := by
  -- Everything is said of one chain: its steps, its worlds, and its pairs.
  have chain := program.history_isChain settings (World.start input)
  refine ⟨history_head? .., history_getLast? .., chain, fun world member => ?_,
    pairwise_grows_of_isChain chain⟩
  exact ⟨sound_of_isChain chain .empty world member, fun _ _ => Value.allows_data _,
    fun _ value _ => value.allows_data⟩

end Pseudocode
