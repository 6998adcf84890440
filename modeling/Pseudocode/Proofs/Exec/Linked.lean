import Mathlib.Data.List.Chain
import Pseudocode.Proofs.Exec.Congruence
import Pseudocode.Proofs.Exec.Frame

/-! Runs in which each world is related to the one before it. -/

namespace Pseudocode

/-- Each world on the way of a walk is related to the one before it. -/
def Walk.Linked {α : Type} (walk : Walk α) (R : World → World → Prop) : Prop :=
  ∀ world, (world :: walk.path world).IsChain R

namespace Walk.Linked

variable {α β : Type} {R : World → World → Prop} {settings : Settings}

/-- A value alone has no way. -/
theorem pure {a : α} : (Pure.pure a : Walk α).Linked R :=
  fun _ => List.isChain_singleton _

/-- A step at once has only the world that it leaves on its way. -/
theorem atom {step : Exec α} (related : ∀ world, R world (step world).2) :
    (atom step).Linked R :=
  fun world => List.isChain_pair.mpr (related world)

/-- A way goes on from its last world. -/
theorem extend {walk : Walk α} (linked : walk.Linked R) (world : World) {later : List World}
    (onward : ((walk.step world).2 :: later).IsChain R) :
    (world :: (walk.path world ++ later)).IsChain R := by
  rw [← List.cons_append, List.isChain_append]
  -- The two parts meet where the first has ended.
  refine ⟨linked world, onward.tail, fun last isLast next isNext => ?_⟩
  rw [walk.ends world] at isLast
  obtain rfl := Option.some.inj isLast
  exact onward.rel_head? isNext

/-- Two walks in turn. -/
theorem bind {first : Walk α} {next : α → Walk β} (start : first.Linked R)
    (rest : ∀ a, first.Gives a → (next a).Linked R) : (first >>= next).Linked R := by
  intro world
  -- The way of the second walk starts at the world that the first has left.
  refine start.extend world ?_
  rcases done : first.step world with ⟨failure | a, after⟩
  · -- A failure ends the way.
    exact List.isChain_singleton _
  · -- What the first walk gives is where the second goes on.
    exact rest a ⟨world, by rw [done]⟩ after

/-- A contained walk, where getting over a fault leads to a related world. -/
theorem contain {walk : Walk α} {instead : α}
    (recovers : ∀ fault, (Walk.atom (recover settings fault)).Linked R) (linked : walk.Linked R) :
    (walk.contain settings instead).Linked R := by
  intro world
  refine linked.extend world ?_
  -- Only a fault adds a world to the way.
  rcases done : walk.step world with ⟨failure | a, after⟩
  · cases failure with
    | fault fault => exact recovers fault after
    | defect defect => exact List.isChain_singleton _
    | unfinished => exact List.isChain_singleton _
  · exact List.isChain_singleton _

/-- A loop, which goes nowhere when it has no turns. -/
theorem loop {test : Walk Bool} {body : Walk Flow} (refl : ∀ world, R world world)
    (tests : test.Linked R) (bodies : body.Linked R) (turns : Nat) :
    (Walk.loop test body turns).Linked R :=
  -- A loop is made of values, steps and walks in turn.
  Walk.loop_of (fun _ walk => walk.Linked R) .pure .bind (atom refl) tests bodies turns

/-- In a walk that keeps to a frame, every world is as the frame wants it, compared with the first
one. -/
theorem rel_of_mem {frame : Frame} {walk : Walk α} (linked : walk.Linked frame.Rel)
    {world moment : World} (member : moment ∈ world :: walk.path world) :
    frame.Rel world moment := by
  -- Frames can be put together, so that related neighbours make all worlds related.
  have : Trans frame.Rel frame.Rel frame.Rel := ⟨frame.trans⟩
  have pairs := (linked world).pairwise
  rcases List.mem_cons.mp member with same | later
  · exact same ▸ frame.refl world
  · exact List.rel_of_pairwise_cons pairs later

/-- In a walk that keeps to a frame, the world that it leaves is as the frame wants it, compared
with every one before. -/
theorem rel_end {frame : Frame} {walk : Walk α} (linked : walk.Linked frame.Rel)
    {world moment : World} (member : moment ∈ world :: walk.path world) :
    frame.Rel moment (walk.step world).2 := by
  have : Trans frame.Rel frame.Rel frame.Rel := ⟨frame.trans⟩
  have pairs := (linked world).pairwise
  -- Every world but the last stands before it.
  obtain ⟨front, ended⟩ := List.getLast?_eq_some_iff.mp (walk.ends world)
  rw [ended] at pairs member
  rcases List.mem_append.mp member with earlier | last
  · exact (List.pairwise_append.mp pairs).2.2 moment earlier _ (by simp)
  · rw [List.mem_singleton.mp last]
    exact frame.refl _

/-- A walk that keeps to a frame leaves a world as the frame wants it. -/
theorem keeps {frame : Frame} {walk : Walk α} (linked : walk.Linked frame.Rel) :
    frame.Keeps walk.step := by
  intro world
  -- The world that a walk leaves is the last one on its way.
  exact linked.rel_of_mem (List.mem_of_getLast? (walk.ends world))

end Walk.Linked

/-- All runs keep to a frame that lets faults be reported and variables be changed as the allowed
targets ask for it. -/
def Frame.runs (frame : Frame) {settings : Settings} {parts : Parts}
    (recovers : ∀ fault, frame.Keeps (recover settings fault))
    (declares : ∀ typing initial {name}, parts.target name →
      frame.Keeps (declareName settings typing initial name))
    (assigns : ∀ datum {name}, parts.target name → frame.Keeps (assignName settings datum name))
    (scans : ∀ {name}, parts.target name → frame.Keeps (scanName settings name)) :
    Congruence settings settings parts where
  Rel walk _ := walk.Linked frame.Rel
  -- A walk is compared with nothing, so that its partner is left out.
  pure := .pure
  bind := .bind
  contain := .contain fun fault => .atom (recovers fault)
  loop tests bodies := .loop frame.refl tests bodies settings.turns
  start _ := .atom (Keeps.note _)
  -- The steps of statements are the frame's own.
  evaluate _ := .atom (Keeps.evaluate _)
  declareName _ _ target := .atom (declares _ _ target)
  assignName _ target := .atom (assigns _ target)
  scanName target := .atom (scans target)
  condition _ := .atom (Keeps.condition _ _)
  subject _ := .atom (Keeps.switchSubject _)
  matchCase _ _ := .atom (Keeps.matchCase _ _)
  showValue _ := .atom (Keeps.showValue _)
  missingBreak := .atom (Keeps.raise _)
  misplacedBreak := .atom (recovers _)
  stray _ := .atom (Keeps.throw _)

/-- All runs keep to a frame that lets any variable be changed and any fault be reported. -/
def Frame.AllowsStores.runs {frame : Frame} {settings : Settings} (stores : frame.AllowsStores)
    (recovers : ∀ fault, frame.Keeps (recover settings fault)) :
    Congruence settings settings .any :=
  frame.runs recovers (fun _ _ _ _ => .declareName stores recovers _ _ _)
    (fun _ _ _ => .assignName stores _ _) fun _ => .scanName stores _

end Pseudocode
