import Pseudocode.Command.Arguments
import Pseudocode.Command.FileTree
import Pseudocode.Exec.Run
import Pseudocode.Interchange.NodeJson
import Pseudocode.Interchange.TreeNode
import Pseudocode.Json.Printer
import Pseudocode.Json.Reader
import Pseudocode.Source.Parser

/-! The command line as a function: from arguments, files and input to output and files. -/

namespace Pseudocode

namespace Command

/-- Why a command ends without an exit status of its own. -/
inductive Crash where
  | failure (failure : Failure)
  | source (error : SyntaxError)
  | notJson
  | tree (error : TreeError)
  /-- The tree is no program. -/
  | notProgram (node : Node)
  | file (problem : FileProblem)

/-- How a command ends. -/
inductive Ending where
  | exit (status : Nat)
  | crash (cause : Crash)

/-- What a command leaves behind. -/
structure Outcome where
  /-- How it ended. -/
  ending : Ending
  /-- What it wrote. -/
  stdout : String := ""
  /-- What it reported. -/
  stderr : String := ""
  /-- The files, with those that it wrote. -/
  files : FileTree
  /-- The state that the run left, if there was one. -/
  world : World := {}

/-- A line with its end. -/
def line (text : String) : String :=
  text ++ "\n"

/-- Lines with their ends. -/
def linesText (lines : Array String) : String :=
  lines.foldl (fun text next => text ++ line next) ""

/-- The lines of an input. What follows the last line end is a line too, if there is anything. -/
def inputLines (input : String) : List String :=
  -- All three kinds of line ends count, and the last line needs none.
  let pieces := (unifyLineEnds input.toList).splitOn '\n'
  let lines := if pieces.getLast? == some [] then pieces.dropLast else pieces
  lines.map String.ofList

/-- The content of a text file as it is read. -/
def fileText (content : String) : String :=
  String.ofList (unifyLineEnds content.toList)

/-- The place of the trace file. -/
def tracePlace : List String := ["debug.txt"]

/-- The text of a trace. -/
def traceText (trace : Array Event) : String :=
  linesText (trace.map Event.line)

/-- What has happened to the files once a program has run. -/
def traced (files : FileTree) (verbosity : Nat) (world : World) : FileTree :=
  -- A run without verbosity leaves an earlier trace file alone.
  if verbosity = 0 then files else files.put tracePlace (traceText world.trace)

/-- Run a program, with its failures left to the caller. -/
def runProgram (program : Program) (verbosity : Nat) (files : FileTree) (input : String) :
    Except Failure Unit × Outcome :=
  let (result, world) := program.run { debug := verbosity } (.start (inputLines input))
  let ending := match result with
    | .ok () => .exit 0
    | .error failure => .crash (.failure failure)
  (result,
    { ending := ending
      -- Output and reports are kept up to the point where the run stopped.
      stdout := linesText world.console.output
      stderr := linesText world.console.reports
      -- The trace file is written also when the run stopped early.
      files := traced files verbosity world
      world := world })

/-- End because of a file. -/
def fileCrash (files : FileTree) (problem : FileProblem) : Outcome :=
  { ending := .crash (.file problem), files := files }

/-- Open the trace file if one is asked for, and go on. -/
def withTrace (files : FileTree) (verbosity : Nat) (next : Outcome) : Outcome :=
  -- The trace file is opened before the run, so a directory in its place ends the command at once.
  if verbosity != 0 && files.isDirectory tracePlace then fileCrash files .directory else next

/-- Run a program as a command: a fault that stops it is reported. -/
def execute (program : Program) (verbosity : Nat) (files : FileTree) (input : String) : Outcome :=
  withTrace files verbosity <| match runProgram program verbosity files input with
  -- Only faults of the program are reported; a defect of the tree crashes the command.
  | (.error (.fault fault), outcome) =>
    { outcome with
      ending := .exit 1
      stderr := outcome.stderr ++ line ("Runtime error: " ++ fault.message) }
  | (_, outcome) => outcome

/-- Refuse to go on, with a report. -/
def refuse (files : FileTree) (report : String) : Outcome :=
  { ending := .exit 1, stderr := line ("Error: " ++ report), files := files }

/-- Read the file that an argument names, and go on with its text. -/
def withFile (files : FileTree) (path : Path) (next : String → Outcome) : Outcome :=
  match files.read path with
  | .ok content => next (fileText content)
  -- These three count as a file that is not there; the other two come through as they are.
  | .error .directory => fileCrash files .directory
  | .error .tooLong => fileCrash files .tooLong
  | .error .missing | .error .notDirectory | .error .nullCharacter =>
    refuse files ("file " ++ path.toText ++ " not found")

/-- Read a program from source text, and go on with it. -/
def withProgram (files : FileTree) (source : String) (next : Program → Outcome) : Outcome :=
  match parseProgram source with
  | .ok program => next program
  | .error error => refuse files error.message

/-- Write out the tree of a source file, beside it. -/
def emitTree (files : FileTree) (path : Path) : Outcome :=
  withFile files path fun source =>
    withProgram files source fun program =>
      -- The name of the tree file is that of the source file with an ending added.
      let target := path.extendName ".ast.json"
      match files.write target program.toNode.toJson.render with
      | .error problem => fileCrash files problem
      | .ok written => { ending := .exit 0, stdout := line target.toText, files := written }

/-- Run a tree that has been written out. -/
def runTree (files : FileTree) (path : Path) (verbosity : Nat) (input : String) : Outcome :=
  withFile files path fun text =>
    match Json.read? text with
    | none => { ending := .crash .notJson, files := files }
    | some data =>
      match Node.ofJson data with
      | .error error => { ending := .crash (.tree error), files := files }
      | .ok node =>
        match Program.ofNode? node with
        | some program => execute program verbosity files input
        -- The trace file has been opened by then, and stays empty.
        | none =>
          withTrace files verbosity
            { ending := .crash (.notProgram node), files := traced files verbosity {} }

/-- Run a source file. -/
def runSource (files : FileTree) (path : Path) (verbosity : Nat) (input : String) : Outcome :=
  withFile files path fun source =>
    withProgram files source fun program => execute program verbosity files input

/-- An argument that names something. The empty text names nothing. -/
def given (argument : Option String) : Option String :=
  -- An empty text asks for nothing, as if the argument had not been given.
  argument.filter (· != "")

/-- The file that the arguments ask to be read. -/
def Arguments.path? (arguments : Arguments) : Option Path :=
  -- Writing out a tree comes before running one, and that before running a source file.
  let named :=
    (given arguments.emitTree).or ((given arguments.runTree).or (given arguments.program))
  named.map .ofText

/-- Refuse wrong arguments. -/
def refuseUsage (name : String) (files : FileTree) (error : UsageError) : Outcome :=
  { ending := .exit 2, stderr := line (name ++ ": error: " ++ error.message), files := files }

/-- Do what the arguments ask for, as the command of the given name. -/
def run (name : String) (words : List String) (files : FileTree) (input : String) : Outcome :=
  match Arguments.read words with
  | .error .help => { ending := .exit 0, files := files }
  -- Wrong arguments have an exit status of their own.
  | .error (.usage error) => refuseUsage name files error
  | .ok arguments =>
    match given arguments.emitTree, given arguments.runTree, given arguments.program with
    | some text, _, _ => emitTree files (.ofText text)
    | none, some text, _ => runTree files (.ofText text) arguments.verbosity input
    | none, none, some text => runSource files (.ofText text) arguments.verbosity input
    -- Arguments that can be read may still name no file.
    | none, none, none => refuseUsage name files .missingProgram

/-- Run the source file that a text names, with nothing reported but by the program itself. -/
def runFile (text : String) (verbosity : Nat) (files : FileTree) (input : String) : Outcome :=
  match files.readText text with
  | .error problem => fileCrash files problem
  -- Unlike on the command line, a source that is refused is not reported here.
  | .ok content =>
    match parseProgram (fileText content) with
    | .error error => { ending := .crash (.source error), files := files }
    | .ok program => withTrace files verbosity (runProgram program verbosity files input).2

end Command

end Pseudocode
