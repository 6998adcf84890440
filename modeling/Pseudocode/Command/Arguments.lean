import Pseudocode.Text.Digit
import Pseudocode.Text.Quoted

/-! The arguments of the command line. -/

namespace Pseudocode

namespace Command

/-- The options. -/
inductive Switch where
  | help
  | verbose
  | emitTree
  | runTree
deriving DecidableEq, Repr

/-- The spellings of an option. -/
def Switch.spellings : Switch → List String
  | .help => ["-h", "--help"]
  | .verbose => ["-v"]
  | .emitTree => ["--emit-ast"]
  | .runTree => ["--ast"]

/-- The name of an option in messages. -/
def Switch.name (switch : Switch) : String :=
  "/".intercalate switch.spellings

/-- Whether an option takes an argument. -/
def Switch.takesArgument : Switch → Bool
  | .emitTree | .runTree => true
  | .help | .verbose => false

/-- All spellings with their options, in the order they are looked through. -/
def spellings : List (String × Switch) :=
  [Switch.help, .verbose, .emitTree, .runTree].flatMap fun switch =>
    switch.spellings.map fun spelling => (spelling, switch)

/-- What is wrong with the arguments. -/
inductive UsageError where
  | unrecognized (words : List String)
  | expectsArgument (switch : Switch)
  | notAllowedWith (switch other : Switch)
  | ignoredArgument (switch : Switch) (text : String)
  | ambiguous (text : String) (candidates : List String)
  | missingProgram
deriving DecidableEq, Repr

/-- The words for wrong arguments. -/
def UsageError.message : UsageError → String
  | .unrecognized words => "unrecognized arguments: " ++ " ".intercalate words
  | .expectsArgument switch => "argument " ++ switch.name ++ ": expected one argument"
  | .notAllowedWith switch other =>
    "argument " ++ switch.name ++ ": not allowed with argument " ++ other.name
  | .ignoredArgument switch text =>
    "argument " ++ switch.name ++ ": ignored explicit argument " ++ quoted text
  | .ambiguous text candidates =>
    "ambiguous option: " ++ text ++ " could match " ++ ", ".intercalate candidates
  | .missingProgram => "missing program file; or use --emit-ast/--ast"

/-- What is attached to an option: a text to a long one, and more letters to one of one letter. -/
inductive Attached where
  | value (text : String)
  | letters (letters : List Char)

/-- What a text is when it is attached to an option with the given spelling. -/
def Attached.ofText (spelling text : List Char) : Attached :=
  -- Two dashes make a long option, which takes its argument after an equals sign.
  if ['-', '-'].isPrefixOf spelling then .value (String.ofList text) else .letters text

/-- What an argument looks like. -/
inductive Mark where
  /-- An option, spelled in full or not, with what is attached to it. -/
  | option (switch : Switch) (attached : Option Attached)
  /-- Something that looks like an option and is none. -/
  | unknown
  /-- A word. -/
  | word
  /-- The two dashes after which all are words. -/
  | dashes

/-- Split a text at its first equals sign. -/
def splitEquals (text : List Char) : Option (List Char × List Char) :=
  let (front, rest) := text.span (· != '=')
  match rest with
  -- The equals sign has to be there, though what follows it may be empty.
  | [] => none
  | _ :: after => some (front, after)

/-- Whether a text looks like a negative number. -/
def looksNegative (text : List Char) : Bool :=
  let isDigit (c : Char) : Bool := (digitValue? c).isSome
  -- One line end at the end of the text is passed over.
  let body := match text.reverse with
    | '\n' :: front => front.reverse
    | _ => text
  match body with
  | '-' :: number =>
    let (whole, rest) := number.span isDigit
    match rest with
    -- Digits alone, or a point with digits after it and perhaps before it.
    | [] => !whole.isEmpty
    | '.' :: fraction => !fraction.isEmpty && fraction.all isDigit
    | _ => false
  | _ => false

/-- The options that a text may be short for. A text with one dash can only be a short option with
something attached to it. -/
def abbreviated (text : List Char) : List (String × Switch × Option Attached) :=
  match text with
  | '-' :: '-' :: _ =>
    let (front, attached) : List Char × Option Attached := match splitEquals text with
      -- Only what stands before the equals sign is compared with the spellings.
      | some (front, after) => (front, some (.value (String.ofList after)))
      | none => (text, none)
    (spellings.filter fun (spelling, _) => front.isPrefixOf spelling.toList).map
      fun (spelling, switch) => (spelling, switch, attached)
  | _ =>
    spellings.filterMap fun (spelling, switch) =>
      -- The first two characters may be a short option with more letters after it.
      if spelling.toList == text.take 2 then
        some (spelling, switch, some (.letters (text.drop 2)))
      -- The start of a spelling counts here too, as it does behind two dashes.
      else if text.isPrefixOf spelling.toList then some (spelling, switch, none)
      else none

/-- What one argument before the two dashes looks like. -/
def mark (argument : String) : Except UsageError Mark :=
  let text := argument.toList
  let find (front : List Char) : Option (String × Switch) :=
    spellings.find? fun (spelling, _) => spelling.toList == front
  let split : Option ((String × Switch) × List Char) := do
    let (front, after) ← splitEquals text
    return (← find front, after)
  -- Anything without a dash in front is a word, and so is a dash alone.
  if text.head? != some '-' then .ok .word
  else
    match find text, split with
    -- A spelling in full is never ambiguous, even if others start with it.
    | some (_, switch), _ => .ok (.option switch none)
    | none, some ((spelling, switch), after) =>
      .ok (.option switch (some (.ofText spelling.toList after)))
    | none, none =>
      if text.length == 1 then .ok .word
      else
        match abbreviated text with
        | [(_, switch, attached)] => .ok (.option switch attached)
        -- A word with a blank in it, or one that looks like a number, is no misspelled option.
        | [] => .ok (if looksNegative text || text.contains ' ' then .word else .unknown)
        | many => .error (.ambiguous argument (many.map (·.1)))

/-- What all arguments look like. -/
def marks : List String → Except UsageError (List (String × Mark))
  | [] => .ok []
  | argument :: rest =>
    -- The dashes themselves keep their mark, and what follows is not looked at any more.
    if argument == "--" then .ok ((argument, .dashes) :: rest.map fun word => (word, .word))
    else do
      -- The marks are made before any option is taken, so an ambiguous one ends everything.
      let first ← mark argument
      return (argument, first) :: (← marks rest)

/-- What the arguments ask for. -/
structure Arguments where
  /-- How often verbosity was asked for. -/
  verbosity : Nat := 0
  /-- The source file whose tree is to be written out. -/
  emitTree : Option String := none
  /-- The tree file that is to be run. -/
  runTree : Option String := none
  /-- The source file that is to be run. -/
  program : Option String := none
  /-- The words that have no place. -/
  extras : List String := []

/-- Why arguments lead to no work. -/
inductive NoWork where
  | help
  | usage (error : UsageError)

/-- Take an option with its argument. The two options that name a file exclude each other. -/
def Arguments.take (arguments : Arguments) (switch : Switch) (text : String) :
    Except NoWork Arguments :=
  match switch with
  | .help => .error .help
  | .verbose => .ok { arguments with verbosity := arguments.verbosity + 1 }
  | .emitTree =>
    if arguments.runTree.isSome then .error (.usage (.notAllowedWith .emitTree .runTree))
    else .ok { arguments with emitTree := some text }
  | .runTree =>
    if arguments.emitTree.isSome then .error (.usage (.notAllowedWith .runTree .emitTree))
    else .ok { arguments with runTree := some text }

/-- The options in a group of letters after one dash, given the option before them. What does not
start with the letter of an option is taken for an argument of the option before it. -/
def grouped (switch : Switch) : List Char → Except UsageError (List Switch)
  | [] => .ok [switch]
  -- The letters are taken one by one, each an option that stood alone.
  | letter :: rest =>
    match spellings.find? fun (spelling, _) => spelling.toList == ['-', letter] with
    | none => .error (.ignoredArgument switch (String.ofList (letter :: rest)))
    | some (_, next) => do return switch :: (← grouped next rest)

/-- Take an option with something attached to it. Two dashes that are attached name nothing. -/
def Arguments.takeAttached (arguments : Arguments) (switch : Switch) :
    Attached → Except NoWork Arguments
  | .value text =>
    -- An option that takes no argument may not have one attached.
    if switch.takesArgument then arguments.take switch (if text == "--" then "" else text)
    else .error (.usage (.ignoredArgument switch text))
  | .letters [] => .error (.usage (.ignoredArgument switch ""))
  | .letters letters =>
    match grouped switch letters with
    | .error error => .error (.usage error)
    | .ok switches => switches.foldlM (fun arguments switch => arguments.take switch "") arguments

/-- Take the words after the last option: the first of them is the program, if there is none yet. -/
def Arguments.takeWords (arguments : Arguments) (words : List (String × Mark)) : Arguments :=
  -- Two dashes before a word are dropped with the word they introduce.
  let isDashes : String × Mark → Bool
    | (_, .dashes) => true
    | _ => false
  if arguments.program.isSome then { arguments with extras := arguments.extras ++ words.map (·.1) }
  else
    match words.dropWhile isDashes with
    | [] => arguments
    | (word, _) :: rest =>
      { arguments with
        program := some word
        extras := arguments.extras ++ (rest.dropWhile isDashes).map (·.1) }

/-- Whether a mark is that of an option, known or not. -/
def Mark.isOption : Mark → Bool
  | .option _ _ | .unknown => true
  | .word | .dashes => false

/-- Go through marked arguments. -/
def Arguments.consume (arguments : Arguments) :
    List (String × Mark) → Except NoWork Arguments
  | [] => .ok arguments
  -- An unknown option is put among the extras, and reported only at the end.
  | (text, .unknown) :: rest => { arguments with extras := arguments.extras ++ [text] }.consume rest
  | (_, .option switch (some attached)) :: rest => do
    (← arguments.takeAttached switch attached).consume rest
  | (_, .option switch none) :: rest =>
    if switch.takesArgument then
      -- The argument must be a word: an option in its place is not taken for one.
      match rest with
      | (text, .word) :: rest => do (← arguments.take switch text).consume rest
      | _ => .error (.usage (.expectsArgument switch))
    else do (← arguments.take switch "").consume rest
  | (text, other) :: rest =>
    if rest.any fun (_, mark) => mark.isOption then
      -- Between options only the first word can be the program.
      if arguments.program.isSome then
        { arguments with extras := arguments.extras ++ [text] }.consume rest
      else { arguments with program := some text }.consume rest
    else .ok (arguments.takeWords ((text, other) :: rest))

/-- Read the arguments. Words without a place are refused. -/
def Arguments.read (words : List String) : Except NoWork Arguments := do
  let marked ← (marks words).mapError .usage
  let arguments ← Arguments.consume {} marked
  -- Extras are reported after everything else has been read without an error.
  if arguments.extras.isEmpty then return arguments
  else .error (.usage (.unrecognized arguments.extras))

end Command

end Pseudocode
