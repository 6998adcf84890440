import Pseudocode.Command.Line

/-! What is asked for by the arguments that run a source file, run a tree file or write out a tree,
with any number of options for verbosity in front. -/

namespace Pseudocode

namespace Command

/-- Options for more verbosity. -/
def verbose (count : Nat) : List String :=
  List.replicate count "-v"

/-- The first argument is marked, and then the others. -/
theorem marks_cons {argument : String} {words : List String} {first : Mark}
    {marked : List (String × Mark)} (ordinary : (argument == "--") = false)
    (here : mark argument = .ok first) (later : marks words = .ok marked) :
    marks (argument :: words) = .ok ((argument, first) :: marked) := by
  -- The argument is not the two dashes, so that both are marked in turn.
  simp only [marks, ordinary, here, later]
  rfl

/-- Options for verbosity are marked in front of everything else. -/
theorem marks_verbose (count : Nat) {words : List String} {marked : List (String × Mark)}
    (rest : marks words = .ok marked) :
    marks (verbose count ++ words) =
      .ok (List.replicate count ("-v", .option .verbose none) ++ marked) := by
  -- The induction is on the number of options, each marked without a look at the others.
  induction count with
  | zero => exact rest
  | succ count ih => exact marks_cons rfl rfl ih

/-- Each option for verbosity counts. -/
theorem consume_verbose (count : Nat) (arguments : Arguments) (rest : List (String × Mark)) :
    arguments.consume (List.replicate count ("-v", .option .verbose none) ++ rest) =
      { arguments with verbosity := arguments.verbosity + count }.consume rest := by
  -- What has been counted so far is part of the arguments, and so they are general.
  induction count generalizing arguments with
  | zero => rfl
  | succ count ih =>
    -- One option is taken, and it takes no argument.
    rw [List.replicate_succ, List.cons_append, Arguments.consume.eq_def]
    show { arguments with verbosity := arguments.verbosity + 1 }.consume _ = _
    rw [ih, Nat.add_assoc, Nat.add_comm 1 count]

/-- Arguments are read by going through them, when each of them has a place. -/
theorem read_verbose {words : List String} {marked : List (String × Mark)} {arguments : Arguments}
    (count : Nat) (marks : marks words = .ok marked)
    (consumes : Arguments.consume { verbosity := count } marked = .ok arguments)
    (placed : arguments.extras = []) : Arguments.read (verbose count ++ words) = .ok arguments := by
  -- Nothing has been asked for before the options are counted.
  have all : Arguments.consume {}
      (List.replicate count ("-v", .option .verbose none) ++ marked) = .ok arguments := by
    rw [consume_verbose, Nat.zero_add]
    exact consumes
  -- Marking and going through are the two halves of reading.
  rw [Arguments.read, marks_verbose count marks]
  show (do
    let arguments ← Arguments.consume {} _
    if arguments.extras.isEmpty then return arguments
    else .error (.usage (.unrecognized arguments.extras))) = _
  rw [all]
  show (if arguments.extras.isEmpty then Except.ok arguments else _) = _
  -- There are no words without a place, so that nothing is refused at the end.
  rw [placed]
  rfl

/-- An argument that is not empty names something. -/
theorem given_some {word : String} (named : word ≠ "") : given (some word) = some word := by
  -- Only the empty text names nothing.
  simp [given, named]

section Words

variable {word : String} (plain : word.toList.head? ≠ some '-')
include plain

/-- What does not start with a dash is marked as a word. -/
theorem marks_word : marks [word] = .ok [(word, .word)] := by
  -- Two dashes would start with a dash.
  have ordinary : (word == "--") = false := by
    rw [beq_eq_false_iff_ne]
    rintro rfl
    exact plain rfl
  exact marks_cons ordinary (by simp [mark, plain]) rfl

variable (named : word ≠ "") (name : String) (files : FileTree) (input : String)
include named

/-- A word alone asks for a source file to be run. -/
theorem run_source (count : Nat) :
    run name (verbose count ++ [word]) files input =
      runSource files (.ofText word) count input := by
  -- The word is the program, and no option has been given but those that are counted.
  have read : Arguments.read (verbose count ++ [word]) =
      .ok { verbosity := count, program := some word } :=
    read_verbose count (marks_word plain) rfl rfl
  rw [run, read]
  simp only [given_some named]
  rfl

/-- A word after the option for trees asks for a tree file to be run. -/
theorem run_tree (count : Nat) :
    run name (verbose count ++ ["--ast", word]) files input =
      runTree files (.ofText word) count input := by
  -- The option takes the word after it.
  have read : Arguments.read (verbose count ++ ["--ast", word]) =
      .ok { verbosity := count, runTree := some word } :=
    read_verbose count (marks_cons rfl rfl (marks_word plain)) rfl rfl
  rw [run, read]
  simp only [given_some named]
  rfl

/-- A word after the option for writing out trees asks for that. -/
theorem run_emit :
    run name ["--emit-ast", word] files input = emitTree files (.ofText word) := by
  -- Without options for verbosity, the count is zero.
  have read : Arguments.read ["--emit-ast", word] = .ok { emitTree := some word } :=
    read_verbose 0 (marks_cons rfl rfl (marks_word plain)) rfl rfl
  rw [run, read]
  simp only [given_some named]

end Words

end Command

end Pseudocode
