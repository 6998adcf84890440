import Pseudocode.Proofs.Exec.Congruence

/-! Runs that end and runs that do not: giving loops more turns never changes a run that has
finished. -/

namespace Pseudocode

/-- The same settings with another number of turns for loops. -/
def Settings.withTurns (settings : Settings) (turns : Nat) : Settings :=
  { settings with turns := turns }

/-- A second walk does what a first one does, if that comes to an end. -/
def Walk.Completes {α : Type} (few many : Walk α) : Prop :=
  ∀ world, (few.step world).1 ≠ .error .unfinished → many.step world = few.step world

namespace Walk.Completes

variable {α β : Type}

/-- Walks in turn come to the same end when each of them does. -/
theorem bind {first first' : Walk α} {next next' : α → Walk β} (start : first.Completes first')
    (rest : ∀ a, first.Gives a → (next a).Completes (next' a)) :
    (first >>= next).Completes (first' >>= next') := by
  intro world finished
  simp only [Walk.bind_step, Exec.bind_run] at finished ⊢
  have same := start world
  rcases done : first.step world with ⟨failure | a, after⟩
  · -- A first walk that fails has ended both, so it cannot have run out of turns.
    have stopped : failure ≠ .unfinished := by simpa [done] using finished
    rw [same (by simpa [done] using stopped), done]
  -- Both second walks start with the same value in the same world.
  · rw [same (by simp [done]), done]
    simp only [done] at finished
    exact rest a ⟨world, by rw [done]⟩ after finished

/-- Contained walks come to the same end when the walks do. -/
theorem contain {settings : Settings} {few many : Nat} {walk walk' : Walk α} {instead : α}
    (same : walk.Completes walk') :
    (walk.contain (settings.withTurns few) instead).Completes
      (walk'.contain (settings.withTurns many) instead) := by
  intro world finished
  simp only [Walk.contain_step, contain_run] at finished ⊢
  have agrees := same world
  -- A contained walk that runs out of turns still does: that is no fault.
  rcases done : walk.step world with ⟨failure | a, after⟩
  · cases failure with
    | fault fault => rw [agrees (by simp [done]), done]; rfl
    | defect defect => rw [agrees (by simp [done]), done]
    | unfinished => simp [done] at finished
  · rw [agrees (by simp [done]), done]

/-- A loop that ends within some turns ends in the same way when it has more. -/
theorem loop {test test' : Walk Bool} {body body' : Walk Flow} (tests : test.Completes test')
    (bodies : body.Completes body') :
    ∀ few many, few ≤ many → (Walk.loop test body few).Completes (Walk.loop test' body' many) := by
  -- The induction is on the smaller number; the larger one loses a turn whenever it does.
  intro few
  induction few with
  | zero =>
    -- Without any turn the loop does not end.
    intro many _ world finished
    exact absurd rfl finished
  | succ few ih =>
    intro many enough
    cases many with
    | zero => omega
    | succ many =>
      -- Both loops have a turn left, so that both begin with the test.
      refine bind tests fun holds _ => ?_
      cases holds with
      | false => exact fun _ _ => rfl
      | true =>
        refine bind bodies fun flow _ => ?_
        cases flow with
        | exit => exact fun _ _ => rfl
        | normal => exact ih many (by omega)

end Walk.Completes

/-- Runs with few turns and runs with more: the only difference is in what has not ended. -/
def moreTurns (settings : Settings) {few many : Nat} (enough : few ≤ many) :
    Congruence (settings.withTurns few) (settings.withTurns many) .any where
  Rel walk walk' := walk.Completes walk'
  pure _ _ := rfl
  bind := Walk.Completes.bind
  contain := Walk.Completes.contain
  loop tests bodies := Walk.Completes.loop tests bodies few many enough
  -- No single step looks at the number of turns.
  start _ _ _ := rfl
  evaluate _ _ _ := rfl
  declareName _ _ _ _ _ := rfl
  assignName _ _ _ _ := rfl
  scanName _ _ _ := rfl
  condition _ _ _ := rfl
  subject _ _ _ := rfl
  matchCase _ _ _ _ := rfl
  showValue _ _ _ := rfl
  missingBreak _ _ := rfl
  misplacedBreak _ _ := rfl
  stray _ _ _ := rfl

namespace Program

/-- A run that has finished is not changed by more turns. -/
theorem run_withTurns {settings : Settings} {program : Program} {world : World} {few many : Nat}
    (enough : few ≤ many)
    (finished : (program.run (settings.withTurns few) world).1 ≠ .error .unfinished) :
    program.run (settings.withTurns many) world = program.run (settings.withTurns few) world := by
  -- The relation of all steps is that of the whole program.
  have related := (moreTurns settings enough).program program (blockUses_any program.body) world
  simp only [walk_step] at related
  exact related finished

/-- A run does not end: whatever number of turns its loops are given, it needs more. -/
def Diverges (settings : Settings) (program : Program) (world : World) : Prop :=
  ∀ turns, (program.run (settings.withTurns turns) world).1 = .error .unfinished

/-- A run ends in the given way: it does so whenever its loops are given enough turns. -/
def EndsWith (settings : Settings) (program : Program) (world : World)
    (outcome : Except Failure Unit) (after : World) : Prop :=
  outcome ≠ .error .unfinished ∧
    ∃ enough, ∀ turns, enough ≤ turns →
      program.run (settings.withTurns turns) world = (outcome, after)

variable {settings : Settings} {program : Program} {world after after' : World}
  {outcome outcome' : Except Failure Unit}

/-- A run that finishes within some number of turns ends as it does then. -/
theorem endsWith_of_run {turns : Nat}
    (done : program.run (settings.withTurns turns) world = (outcome, after))
    (finished : outcome ≠ .error .unfinished) :
    program.EndsWith settings world outcome after := by
  -- The turns that were enough are the bound, as more turns change nothing.
  refine ⟨finished, turns, fun more enough => ?_⟩
  rw [run_withTurns enough (by rw [done]; exact finished), done]

/-- A run ends in one way only. -/
theorem EndsWith.unique (first : program.EndsWith settings world outcome after)
    (second : program.EndsWith settings world outcome' after') :
    outcome = outcome' ∧ after = after' := by
  -- Both ways are seen with the greater number of turns.
  obtain ⟨_, enough, done⟩ := first
  obtain ⟨_, enough', done'⟩ := second
  have same := (done (max enough enough') (by omega)).symm.trans
    (done' (max enough enough') (by omega))
  exact Prod.mk.inj same

/-- A run that ends does not go on for ever. -/
theorem EndsWith.not_diverges (ended : program.EndsWith settings world outcome after) :
    ¬ program.Diverges settings world := by
  -- The bound itself is a number of turns with which the run finishes.
  obtain ⟨finished, enough, done⟩ := ended
  intro diverges
  have unfinished := diverges enough
  rw [done enough (Nat.le_refl _)] at unfinished
  exact finished unfinished

/-- A run ends, or it goes on for ever. -/
theorem diverges_or_endsWith (settings : Settings) (program : Program) (world : World) :
    program.Diverges settings world ∨ ∃ outcome after,
      program.EndsWith settings world outcome after := by
  by_cases diverges : program.Diverges settings world
  · exact .inl diverges
  · -- Some number of turns is enough for it to finish.
    obtain ⟨turns, finished⟩ := Classical.not_forall.mp diverges
    exact .inr ⟨_, _, endsWith_of_run rfl finished⟩

end Program

end Pseudocode
