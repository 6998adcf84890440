/-! Paths, and the files below a working directory. -/

namespace Pseudocode

/-- Split a text at every slash. -/
def splitSlashes (text : List Char) : List (List Char) :=
  text.foldr
    -- The first piece of the result is the one that the next character to the left belongs to.
    (fun c pieces =>
      match pieces with
      | piece :: rest => if c == '/' then [] :: piece :: rest else (c :: piece) :: rest
      | [] => if c == '/' then [[], []] else [[c]])
    [[]]

/-- A path in plain form: empty parts and single dots leave no trace. -/
structure Path where
  /-- The slashes in front, if the path does not start at the working directory. -/
  root : String
  /-- The parts. -/
  parts : List String
deriving DecidableEq, Repr

namespace Path

/-- The path that a text spells. Exactly two slashes in front are kept as they are. -/
def ofText (text : String) : Path :=
  let slashes := (text.toList.takeWhile (· == '/')).length
  -- Empty pieces come from slashes in front, in a row or at the end.
  let pieces := (splitSlashes text.toList).filter fun piece => piece != [] && piece != ['.']
  { root := if slashes == 0 then "" else if slashes == 2 then "//" else "/"
    parts := pieces.map String.ofList }

/-- The text of a path. -/
def toText (path : Path) : String :=
  -- The path to the working directory itself has no parts.
  if path.root == "" && path.parts.isEmpty then "."
  else path.root ++ "/".intercalate path.parts

/-- The steps that lead to a path, the first of them to the root if the path starts there. -/
def steps (path : Path) : List String :=
  if path.root == "" then path.parts else "/" :: path.parts

/-- The path whose last part has something added to it. -/
def extendName (path : Path) (suffix : String) : Path :=
  match path.parts.reverse with
  | [] => path
  | last :: front => { path with parts := ((last ++ suffix) :: front).reverse }

end Path

/-- The steps that a text spells. Single dots count, and a slash at the end asks for a directory. -/
def textSteps (text : String) : List String :=
  let pieces := splitSlashes text.toList
  let parts := (pieces.filter (· != [])).map String.ofList
  let root := if text.startsWith "/" then ["/"] else []
  -- An empty last piece means that the text ends with a slash.
  let last := if pieces.getLast? == some [] then ["."] else []
  root ++ parts ++ last

/-- Why a file cannot be read or written. -/
inductive FileProblem where
  | missing
  | directory
  | notDirectory
  /-- The path, or a part of it, is too long. -/
  | tooLong
  /-- The path holds a null character. -/
  | nullCharacter
deriving DecidableEq, Repr

/-- The number of bytes that a part of a path has at most. -/
def partLimit : Nat := 255

/-- The number of bytes that a path has at most. -/
def pathLimit : Nat := 4095

/-- The files below a working directory, each with the steps that lead to it and its content. -/
structure FileTree where
  /-- The files. -/
  files : List (List String × String)

namespace FileTree

/-- The content of the file at the given place. -/
def file? (tree : FileTree) (place : List String) : Option String :=
  (tree.files.find? (·.1 == place)).map (·.2)

/-- Whether a place is a directory: the root, the working directory or one above it, or a place
above a file. -/
def isDirectory (tree : FileTree) (place : List String) : Bool :=
  -- The file itself is no directory, only what is above it.
  place == ["/"] || place.all (· == "..") ||
    tree.files.any fun (other, _) => place.isPrefixOf other && place != other

/-- The place above a place, both given with the latest step first. -/
def above : List String → List String
  | [] => [".."]
  -- Above the working directory, each step up is one more pair of dots.
  | ".." :: rest => ".." :: ".." :: rest
  -- The directory above the root is the root.
  | ["/"] => ["/"]
  | _ :: rest => rest

/-- Follow steps from a place, given with its latest step first. -/
def locate (tree : FileTree) (place : List String) : List String → Except FileProblem (List String)
  | [] => .ok place.reverse
  | step :: rest =>
    -- A step can only be taken from a directory, whatever the step is.
    if !tree.isDirectory place.reverse then
      .error (if (tree.file? place.reverse).isSome then .notDirectory else .missing)
    else if step == "/" then tree.locate ["/"] rest
    else if step == "." then tree.locate place rest
    else if step == ".." then tree.locate (above place) rest
    -- The length of a part is looked at only when it is taken.
    else if partLimit < step.utf8ByteSize then .error .tooLong
    else tree.locate (step :: place) rest

/-- The place that a path with the given text and steps leads to. -/
def resolve (tree : FileTree) (text : String) (steps : List String) :
    Except FileProblem (List String) :=
  -- These two are checked before any step is taken.
  if text.toList.contains '\x00' then .error .nullCharacter
  else if pathLimit < text.utf8ByteSize then .error .tooLong
  -- A file that is known by these very steps needs no search.
  else if (tree.file? steps).isSome then .ok steps
  else tree.locate [] steps

/-- Read the file at a place. -/
def readPlace (tree : FileTree) (place : List String) : Except FileProblem String :=
  match tree.file? place with
  | some content => .ok content
  | none => .error (if tree.isDirectory place then .directory else .missing)

/-- Read the file at a path. -/
def read (tree : FileTree) (path : Path) : Except FileProblem String := do
  tree.readPlace (← tree.resolve path.toText path.steps)

/-- Read the file that a text spells the way to. -/
def readText (tree : FileTree) (text : String) : Except FileProblem String :=
  if text == "" then .error .missing
  else do tree.readPlace (← tree.resolve text (textSteps text))

/-- Put a file at a place, new or not. -/
def put (tree : FileTree) (place : List String) (content : String) : FileTree :=
  -- A file put anew stands last.
  ⟨(tree.files.filter (·.1 != place)) ++ [(place, content)]⟩

/-- Write the file at a path. A directory cannot be written over. -/
def write (tree : FileTree) (path : Path) (content : String) : Except FileProblem FileTree := do
  let place ← tree.resolve path.toText path.steps
  if tree.isDirectory place then .error .directory else .ok (tree.put place content)

end FileTree

end Pseudocode
