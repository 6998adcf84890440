import Pseudocode.Proofs.Command.Files
import Pseudocode.Proofs.Command.Paths
import Pseudocode.Proofs.Command.Requests
import Pseudocode.Proofs.Exec.Started
import Pseudocode.Proofs.Interchange.Programs
import Pseudocode.Proofs.Interchange.RoundTrip
import Pseudocode.Proofs.Json.LineEnds
import Pseudocode.Proofs.Source.Sourced

/-! The two ways to run a source file: at once, or by way of its tree in a file beside it. -/

namespace Pseudocode

namespace Command

/-- What two commands show is the same: how they end, what they write and report, and what they
leave in the trace file. -/
structure Outcome.Alike (outcome other : Outcome) : Prop where
  /-- They end in the same way. -/
  ending : outcome.ending = other.ending
  /-- They write the same. -/
  stdout : outcome.stdout = other.stdout
  /-- They report the same. -/
  stderr : outcome.stderr = other.stderr
  /-- They leave the same trace file, or none. -/
  traceFile : outcome.files.file? tracePlace = other.files.file? tracePlace

variable {files other : FileTree}

/-- A run changes the trace file in the same way, whatever other files there are. -/
theorem file?_traced (same : other.file? tracePlace = files.file? tracePlace) (verbosity : Nat)
    (world : World) :
    (traced other verbosity world).file? tracePlace =
      (traced files verbosity world).file? tracePlace := by
  unfold traced
  -- Without verbosity nothing is written, and else the trace is all that matters.
  split
  · exact same
  -- The file that is written is the trace file itself, and its text is the same.
  · rw [FileTree.file?_put, FileTree.file?_put]
    simp

/-- To a program only the trace file and its directory matter. -/
theorem execute_alike (directory : other.isDirectory tracePlace = files.isDirectory tracePlace)
    (same : other.file? tracePlace = files.file? tracePlace) (program : Program) (verbosity : Nat)
    (input : String) :
    (execute program verbosity other input).Alike (execute program verbosity files input) := by
  unfold execute withTrace
  rw [directory]
  split
  · -- The trace file cannot be opened.
    exact ⟨rfl, rfl, rfl, same⟩
  · -- The run itself does not see the files.
    unfold runProgram
    rcases program.run { debug := verbosity } (.start (inputLines input)) with
      ⟨failure | done, world⟩
    · cases failure with
      | fault fault => exact ⟨rfl, rfl, rfl, file?_traced same verbosity world⟩
      | defect defect => exact ⟨rfl, rfl, rfl, file?_traced same verbosity world⟩
      | unfinished => exact ⟨rfl, rfl, rfl, file?_traced same verbosity world⟩
    · exact ⟨rfl, rfl, rfl, file?_traced same verbosity world⟩

/-- A command that runs a program fails because of a fault. -/
theorem run_of_execute_exit {program : Program} {verbosity : Nat} {input : String}
    (fails : (execute program verbosity files input).ending = .exit 1) :
    ∃ fault, program.run { debug := verbosity } (.start (inputLines input)) =
      (.error (.fault fault), (execute program verbosity files input).world) := by
  unfold execute withTrace runProgram at fails ⊢
  -- Where the trace file cannot be opened, the command ends with a crash.
  split at fails
  · cases fails
  · rename_i opened
    rw [if_neg opened]
    -- Of all results of a run only a fault ends with that status.
    revert fails
    rcases program.run { debug := verbosity } (.start (inputLines input)) with
      ⟨failure | done, world⟩
    · cases failure with
      | fault fault => exact fun _ => ⟨fault, rfl⟩
      | defect defect => exact fun fails => by cases fails
      | unfinished => exact fun fails => by cases fails
    · exact fun fails => by cases fails

/-- A program from source text that fails when it is traced has started a statement. -/
theorem trace_ne_of_execute_exit {program : Program} (sourced : program.Uses .sourced)
    {verbosity : Nat} {input : String} (seen : 1 ≤ verbosity)
    (fails : (execute program verbosity files input).ending = .exit 1) :
    (execute program verbosity files input).world.trace ≠ #[] := by
  obtain ⟨fault, ran⟩ := run_of_execute_exit fails
  cases body : program.body with
  | nil =>
    -- There is nothing that could fail.
    rw [Program.run, Program.exec, body] at ran
    cases ran
  | cons first rest =>
    -- What is no block comes from no source text.
    have ordinary : ∀ node, first ≠ .noBlock node := by
      rintro node rfl
      rw [Program.Uses, body] at sourced
      exact sourced.1
    have traced : 1 ≤ ({ debug := verbosity } : Settings).debug := seen
    have started := Program.trace_run body ordinary traced (.start (inputLines input))
    rw [ran] at started
    -- A trace with the start of a statement in it is not empty.
    intro none
    rw [none] at started
    exact absurd started (by simp)

variable {path : Path} {text content : String}

/-- A file that can be read is gone on with. -/
theorem withFile_of_read (present : files.read path = .ok content) (next : String → Outcome) :
    withFile files path next = next (fileText content) := by
  simp [withFile, present]

/-- The tree of a program from source text is run as the program is. -/
theorem runTree_of_render {program : Program} (sourced : program.Uses .sourced)
    (present : files.read path = .ok program.toNode.toJson.render) (verbosity : Nat)
    (input : String) :
    runTree files path verbosity input = execute program verbosity files input := by
  -- The text of a tree file has no line ends that would be changed.
  have same : fileText program.toNode.toJson.render = program.toNode.toJson.render :=
    Json.unifyLineEnds_render _
  -- Text, data, node and program are each read back from the next.
  rw [runTree, withFile_of_read present, same]
  simp only [Program.read?_render program sourced, Node.ofJson_toJson,
    Program.ofNode?_toNode program sourced]

/-- Writing a tree file leaves the trace file alone. -/
theorem file?_write_tree (named : NamesFile text)
    (writes : files.write (.ofText (text ++ ".ast.json")) content = .ok other) :
    other.file? tracePlace = files.file? tracePlace := by
  have free : '/' ∉ ".ast.json".toList := by decide
  obtain ⟨front, last, steps⟩ := Path.steps_ofText_append named free
  -- The names of tree files are told from others by their last letter.
  have ends : (last ++ ".ast.json").toList.getLast? = some 'n' := by
    rw [String.toList_append, List.getLast?_append]
    rfl
  have different :
      ∀ name : String, name.toList.getLast? ≠ some 'n' → last ++ ".ast.json" ≠ name := by
    rintro name other rfl
    exact other ends
  have ordinary : FileTree.IsName (last ++ ".ast.json") :=
    ⟨different "/" (by decide), different "." (by decide), different ".." (by decide)⟩
  refine FileTree.file?_write ordinary steps writes fun same => ?_
  -- The name of the trace file ends in another letter.
  exact different "debug.txt" (by decide) (Option.some.inj same).symm

/-- A source file with an error in it is not run. -/
theorem runSource_of_error (present : files.read path = .ok content) {error : SyntaxError}
    (refused : parseProgram (fileText content) = .error error) (verbosity : Nat) (input : String) :
    runSource files path verbosity input = refuse files error.message := by
  -- The text is read and then refused.
  rw [runSource, withFile_of_read present]
  simp only [withProgram, refused]

/-- The tree of a source file with an error in it is not written out. -/
theorem emitTree_of_error (present : files.read path = .ok content) {error : SyntaxError}
    (refused : parseProgram (fileText content) = .error error) :
    emitTree files path = refuse files error.message := by
  rw [emitTree, withFile_of_read present]
  simp only [withProgram, refused]

/-- A source file without an error in it is run as its program. -/
theorem runSource_of_program (present : files.read path = .ok content) {program : Program}
    (accepted : parseProgram (fileText content) = .ok program) (verbosity : Nat) (input : String) :
    runSource files path verbosity input = execute program verbosity files input := by
  rw [runSource, withFile_of_read present]
  simp only [withProgram, accepted]

/-- The tree of a source file without an error in it is written out, unless there is a problem with
the tree file. -/
theorem emitTree_of_program (named : NamesFile text)
    (present : files.read (.ofText text) = .ok content) {program : Program}
    (accepted : parseProgram (fileText content) = .ok program) :
    (∃ problem, emitTree files (.ofText text) = fileCrash files problem ∧
        ∀ content, files.write (.ofText (text ++ ".ast.json")) content = .error problem) ∨
      (emitTree files (.ofText text)).ending = .exit 0 ∧
        files.write (.ofText (text ++ ".ast.json")) program.toNode.toJson.render =
          .ok (emitTree files (.ofText text)).files := by
  have free : '/' ∉ ".ast.json".toList := by decide
  rw [emitTree, withFile_of_read present]
  -- The name of the tree file is that of the source file with an ending.
  simp only [withProgram, accepted, Path.extendName_ofText named free]
  -- What is left is to write the file.
  cases writes : files.write (.ofText (text ++ ".ast.json")) program.toNode.toJson.render with
  | error problem => exact .inl ⟨problem, rfl, FileTree.write_error writes⟩
  | ok written => exact .inr ⟨rfl, rfl⟩

/-- Running the tree file of a program shows what running the program shows. -/
theorem run_tree_alike (name : String) (named : NamesFile text) {program : Program}
    (sourced : program.Uses .sourced)
    (writes : files.write (.ofText (text ++ ".ast.json")) program.toNode.toJson.render = .ok other)
    (count : Nat) (input : String) :
    (run name (verbose count ++ ["--ast", text ++ ".ast.json"]) other input).Alike
      (execute program count files input) := by
  -- The command is given the tree file, and finds what has been written there.
  rw [run_tree (named.head?_append_ne _) (named.append_ne _),
    runTree_of_render sourced (FileTree.read_write writes)]
  exact execute_alike (FileTree.isDirectory_write writes tracePlace)
    (file?_write_tree named writes) program count input

end Command

end Pseudocode
