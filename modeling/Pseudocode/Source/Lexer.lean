import Pseudocode.Source.Token
import Pseudocode.Text.Word

/-! Cutting source text into tokens, where the place in the program decides what is looked for. -/

namespace Pseudocode

namespace Lexer

/-- A blank within a line. -/
def isInlineBlank (c : Char) : Bool :=
  c == ' ' || c == '\t'

/-- A character that may stand in the gap before an `ELSE`, comments apart. -/
def isGapChar (c : Char) : Bool :=
  c == ' ' || c == '\t' || c == '\r' || c == '\n' || c == ';'

/-- Whether a text starts with the word `ELSE`. Nothing is asked of what stands before it. -/
def startsElse : List Char → Bool
  | 'E' :: 'L' :: 'S' :: 'E' :: rest =>
    match rest with
    -- The word goes on with letters and digits of every script.
    | [] => true
    | c :: _ => !isWordChar c
  | _ => false

/-- The last `ELSE` that a gap reaches, counting those in its comments. -/
def lastElse? (inComment : Bool) : List Char → Option (List Char)
  | [] => none
  | c :: rest =>
    let later :=
      -- A comment lasts up to the line feed, and may hold the word as well.
      if inComment && c != '\n' then lastElse? true rest
      else if c == '#' then lastElse? true rest
      else if isGapChar c then lastElse? false rest
      else none
    match later with
    -- A later `ELSE` is preferred to this one.
    | some found => some found
    | none => if startsElse (c :: rest) then some (c :: rest) else none

/-- The rest of a text after the gap that leads to an `ELSE`, if it starts with one. -/
def afterElseGap? : List Char → Option (List Char)
  | [] => none
  | c :: rest =>
    -- The gap is never empty, so that an `ELSE` at the front has none before it.
    if c == '#' then lastElse? true rest
    else if isGapChar c then lastElse? false rest
    else none

/-- Drop blanks and comments within a line. -/
def dropInline (inComment : Bool) : List Char → List Char
  | [] => []
  | c :: rest =>
    -- The line feed that ends a comment is left.
    if inComment then if c == '\n' then c :: rest else dropInline true rest
    else if isInlineBlank c then dropInline false rest
    else if c == '#' then dropInline true rest
    else c :: rest

/-- Drop what has no meaning before the next token: the whole gap before an `ELSE`, and else only
blanks and comments within the line. -/
def skip (text : List Char) : List Char :=
  (afterElseGap? text).getD (dropInline false text)

/-- Drop line ends and semicolons, with the blanks and comments among and after them. -/
def dropLayout (inComment : Bool) : List Char → List Char
  | [] => []
  | c :: rest =>
    if inComment then dropLayout (c != '\n') rest
    -- A semicolon counts as a line end.
    else if isInlineBlank c || c == '\n' || c == ';' then dropLayout false rest
    else if c == '#' then dropLayout true rest
    -- A carriage return counts only with its line feed.
    else if c == '\r' && rest.head? == some '\n' then dropLayout false rest
    else c :: rest

/-- A character that may start a name. -/
def isNameStart (c : Char) : Bool :=
  c.isAlpha || c == '_'

/-- A character that may continue a name. -/
def isNameChar (c : Char) : Bool :=
  c.isAlphanum || c == '_'

/-- Read a word. Where a name may stand, a keyword must be the whole word and be expected; anything
else is a name. Where no name may stand, an expected keyword may run on into what follows it. -/
def readWord? (admits : TokenClass → Bool) (text : List Char) : Option (Token × List Char) :=
  if admits .name then
    -- Where a name is admitted, the whole word is read before it is looked up.
    let (word, rest) := text.span isNameChar
    match Keyword.all.find? fun k => k.spelling.toList == word && admits (.keyword k) with
    | some keyword => some (.keyword keyword, rest)
    | none => some (.name word, rest)
  else
    -- Nothing is asked of what follows the keyword here.
    (Keyword.all.find? fun k => k.spelling.toList.isPrefixOf text && admits (.keyword k)).map
      fun keyword => (.keyword keyword, text.drop keyword.spelling.length)

/-- The numbers that a text may start with, the one with a fraction first. -/
def numbersAt (text : List Char) : List (Token × List Char) :=
  let (whole, rest) := text.span Char.isDigit
  let (fraction, after) := rest.tail.span Char.isDigit
  let integer : Token × List Char := (.integer whole, rest)
  -- A point without digits after it is no part of the number.
  if rest.head? == some '.' && !fraction.isEmpty then
    [(.decimal (whole ++ '.' :: fraction), after), integer]
  -- Where no fraction is expected, the number may end before its point.
  else [integer]

/-- The text in double quotes that a text may start with, after its opening quote. -/
def quotationAt (text : List Char) : List (Token × List Char) :=
  let (content, rest) := text.span fun c => c != '"' && c != '\n'
  match rest with
  -- A quotation that is not closed on its line is no token.
  | '"' :: after => [(.quotation content, after)]
  | _ => []

/-- The text in brackets that a text may start with, after its opening bracket. A closing bracket
can be such a text by itself. -/
def bracketedAt (text : List Char) : List (Token × List Char) :=
  match text with
  | ']' :: ']' :: after => [(.bracketed [']'], after)]
  | _ =>
    -- The brackets stand on one line too.
    let (content, rest) := text.span fun c => c != ']' && c != '\n'
    match rest with
    | ']' :: after => [(.bracketed content, after)]
    | _ => []

/-- The tokens other than words that a text may start with, in the order they are tried. -/
def tokensAt : List Char → List (Token × List Char)
  -- Where no comparison is expected, the first of two equals signs may be a token of its own.
  | '=' :: '=' :: rest => [(.compare .eq, rest), (.equals, '=' :: rest)]
  | '=' :: rest => [(.equals, rest)]
  | '<' :: '>' :: rest => [(.compare .ne, rest)]
  | '<' :: '=' :: rest => [(.compare .le, rest)]
  | '<' :: rest => [(.compare .lt, rest)]
  | '>' :: '=' :: rest => [(.compare .ge, rest)]
  | '>' :: rest => [(.compare .gt, rest)]
  | '*' :: rest => [(.scale .mul, rest)]
  | '/' :: rest => [(.scale .div, rest)]
  | '%' :: rest => [(.scale .rem, rest)]
  | '+' :: rest => [(.plus, rest)]
  | '-' :: rest => [(.minus, rest)]
  | '&' :: rest => [(.ampersand, rest)]
  | '$' :: rest => [(.dollar, rest)]
  | '(' :: rest => [(.leftParen, rest)]
  | ')' :: rest => [(.rightParen, rest)]
  | '{' :: rest => [(.leftBrace, rest)]
  | '}' :: rest => [(.rightBrace, rest)]
  | ':' :: rest => [(.colon, rest)]
  | ',' :: rest => [(.comma, rest)]
  | '"' :: rest => quotationAt rest
  | '[' :: rest => bracketedAt rest
  -- A quote character cannot stand between quotes.
  | '\'' :: c :: '\'' :: rest => if c == '\'' || c == '\n' then [] else [(.character c, rest)]
  -- All line ends and semicolons that follow belong to one separator.
  | '\r' :: '\n' :: rest => [(.separator, dropLayout false rest)]
  | '\n' :: rest => [(.separator, dropLayout false rest)]
  | ';' :: rest => [(.separator, dropLayout false rest)]
  | text => if (text.head?.map Char.isDigit).getD false then numbersAt text else []

/-- Read the first token of a text that is expected at this place. -/
def readToken? (admits : TokenClass → Bool) (text : List Char) : Option (Token × List Char) :=
  -- A word is read apart, because what it is depends on more than its characters.
  if (text.head?.map isNameStart).getD false then readWord? admits text
  -- Of the tokens that could be read, the first that is expected is taken.
  else (tokensAt text).find? fun (token, _) => admits token.tokenClass

/-- The part of a text that stands before the given rest of it. -/
def consumed (text rest : List Char) : List Char :=
  text.take (text.length - rest.length)

/-- What is shown of a text that starts with nothing expected: the token that it would start with
anywhere else, or else one character. -/
def offending (text : List Char) : List Char :=
  -- Every class is expected here, so that the token is read as in any other place.
  match readToken? (fun _ => true) text with
  | some (_, rest) => consumed text rest
  | none => text.take 1

end Lexer

end Pseudocode
