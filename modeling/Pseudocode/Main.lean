import Pseudocode.Command.Line

/-! The command line program. -/

namespace Pseudocode

namespace Command

/-- The name under which the program reports wrong arguments. -/
def programName : String := "pseudocode"

/-- Read a stream to its end. -/
partial def readToEnd (stream : IO.FS.Stream) (text : String) : IO String := do
  let next ← stream.getLine
  if next.isEmpty then return text else readToEnd stream (text ++ next)

/-- The file that the arguments ask for, if it can be read. -/
def gather (words : List String) : IO FileTree := do
  match Arguments.read words with
  -- Wrong arguments are reported by the run, which needs no file for that.
  | .error _ => return ⟨[]⟩
  | .ok arguments =>
    match arguments.path? with
    | none => return ⟨[]⟩
    | some path =>
      try
        let content ← IO.FS.readFile path.toText
        -- The one file the command reads is all that the run has to know of the disk.
        return ⟨[(path.steps, content)]⟩
      -- A file that cannot be read is one that is not there.
      catch _ => return ⟨[]⟩

/-- The text of a place among files. -/
def placeText : List String → String
  -- The first step of a place from the root is the root itself.
  | "/" :: parts => "/" ++ "/".intercalate parts
  | parts => "/".intercalate parts

/-- Write the files that a command has left new or changed. -/
def store (before after : FileTree) : IO Unit :=
  after.files.forM fun (place, content) =>
    -- Files that the run has only read are not written again.
    if before.file? place == some content then pure ()
    else IO.FS.writeFile (placeText place) content

/-- The exit status of a command. One that could not end by itself counts as failed. -/
def status : Ending → UInt32
  | .exit code => code.toUInt32
  | .crash _ => 1

/-- Run the command with the given arguments. -/
def start (words : List String) : IO UInt32 := do
  let files ← gather words
  let input ← readToEnd (← IO.getStdin) ""
  let outcome := run programName words files input
  IO.print outcome.stdout
  IO.eprint outcome.stderr
  store files outcome.files
  return status outcome.ending

end Command

end Pseudocode

/-- The command line program. -/
def main (words : List String) : IO UInt32 :=
  Pseudocode.Command.start words
