import Pseudocode.Source.Boundary
import Pseudocode.Source.Lexer
import Pseudocode.Source.Step

/-! Reading a program from its source text. -/

namespace Pseudocode

/-- The trouble at the point of a source text from which `rest` is left. Only line feeds count as
line ends here. -/
def SyntaxError.before (source rest : List Char) (cause : SyntaxCause) : SyntaxError :=
  let front := Lexer.consumed source rest
  -- Lines and columns are counted from one.
  let line := front.count '\n' + 1
  let column := (front.reverse.takeWhile (· != '\n')).length + 1
  ⟨cause, some line, some column⟩

/-- Read tokens until the source text ends, at most `fuel` of them. The text from the last token on
is kept for an end that comes too soon, and the first literal out of range for a source text that
has nothing else wrong. -/
def readTokens (source : List Char) :
    Nat → Stage → List Char → List Char → Option SyntaxError → Except SyntaxError Program
  | fuel, stage, last, text, range =>
    match fuel, Lexer.skip text with
    -- The text is used up, and the program must be complete.
    | _, [] =>
      match stage.program?, range with
      | some program, none => .ok program
      -- A number out of range is told only when there is nothing else to tell.
      | some _, some error => .error error
      | none, _ => .error (.before source last (.unexpected ""))
    | 0, _ => .error (.before source last (.unexpected ""))
    -- The text that is left is said to be unexpected from the first visible character on.
    | fuel + 1, start =>
      let refuse (shown : List Char) : Except SyntaxError Program :=
        .error (.before source start (.unexpected (String.ofList shown)))
      match Lexer.readToken? stage.mode.admits start with
      | none => refuse (Lexer.offending start)
      | some (token, rest) =>
        match stage.step token with
        -- The token could be found, but not be accepted.
        | none => refuse (Lexer.consumed start rest)
        | some next =>
          -- Only the first number that is out of range is kept.
          let error := token.rangeError?.map (SyntaxError.before source start)
          readTokens source fuel next start rest (range.or error)

/-- Read a program from its source text. Each token takes at least one character. -/
def parseProgram (source : String) : Except SyntaxError Program := do
  let chars := source.toList
  checkBoundaries chars
  -- No more tokens can be read than there are characters.
  readTokens chars chars.length .initial chars chars none

end Pseudocode
