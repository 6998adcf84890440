import Pseudocode.Proofs.Exec.Linked

/-! What the trace of a run starts with: the statement that the run starts with. -/

namespace Pseudocode

variable {settings : Settings}

/-- The frame of all that only adds to the trace. -/
def recording : Frame where
  Rel before after := before.trace.toList <+: after.trace.toList
  refl _ := List.prefix_rfl
  trans := List.IsPrefix.trans
  noting _ _ _ := by
    -- An event is put behind the others if it is traced.
    unfold World.noting
    split <;> simp
  writing _ _ := List.prefix_rfl
  reading world := by
    unfold World.reading
    exact List.prefix_rfl

/-- The variables may change without anything being taken out of the trace. -/
theorem recording_stores : recording.AllowsStores :=
  fun _ _ => List.prefix_rfl

/-- A report is added to the trace, or not traced at all. -/
theorem recover_recording (fault : Fault) : recording.Keeps (recover settings fault) := by
  intro world
  -- A report may be an event too.
  rw [recover_run]
  split
  · exact recording.refl world
  · exact recording.noting settings (.report fault) { world with faults := world.faults.push fault }

/-- In all runs the trace is only added to. -/
def recordingRuns (settings : Settings) : Congruence settings settings .any :=
  recording_stores.runs recover_recording

/-- The first thing that a statement does is to trace its start. -/
theorem Stmt.start_mem_path {stmt : Stmt} (ordinary : ∀ node, stmt ≠ .noBlock node)
    (world : World) :
    world.noting settings (.start stmt.kindName) ∈ (stmt.walk settings).path world := by
  -- Only a statement without a block is not traced at its start.
  have start : (startWalk settings stmt).path world =
      [world.noting settings (.start stmt.kindName)] := by
    unfold startWalk
    split
    · exact absurd rfl (ordinary _)
    · simp [Walk.atom]
  -- Whatever the statement is, its way begins with that of its start.
  rw [Stmt.walk.eq_def]
  exact List.mem_append_left _ (by simp [start])

/-- The trace of a program that is traced starts with the start of its first statement, however the
run ends. -/
theorem Program.trace_run {program : Program} {first : Stmt} {rest : List Stmt}
    (body : program.body = first :: rest) (ordinary : ∀ node, first ≠ .noBlock node)
    (traced : 1 ≤ settings.debug) (world : World) :
    world.trace.toList ++ [.start first.kindName] <+:
      (program.run settings world).2.trace.toList := by
  have start : world.noting settings (.start first.kindName) ∈ (first.walk settings).path world :=
    Stmt.start_mem_path ordinary world
  -- The way of the program starts with that of its first statement.
  have member : world.noting settings (.start first.kindName) ∈
      world :: (program.walk settings).path world := by
    rw [Program.walk, body]
    exact .tail _ (List.mem_append_left _ (List.mem_append_left _ (List.mem_append_left _ start)))
  -- From there on the trace is only added to.
  have linked := (recordingRuns settings).program program (blockUses_any program.body)
  have later : recording.Rel (world.noting settings (.start first.kindName))
      ((program.walk settings).step world).2 := Walk.Linked.rel_end linked member
  rw [walk_step] at later
  -- The statement is traced at every level but zero.
  have noted : (world.noting settings (.start first.kindName)).trace =
      world.trace.push (.start first.kindName) := by
    simp [World.noting, Event.level, traced]
  rw [← Array.toList_push, ← noted]
  exact later

end Pseudocode
