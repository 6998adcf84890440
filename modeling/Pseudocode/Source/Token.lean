import Pseudocode.Source.SyntaxError
import Pseudocode.Syntax.Operator
import Pseudocode.Value.Convert

/-! The tokens of source text. -/

namespace Pseudocode

/-- The words with a meaning of their own. -/
inductive Keyword where
  | begins
  | ends
  | code
  | ifs
  | elses
  | whiles
  | switches
  | cases
  | defaults
  | breaks
  | display
  | scan
  -- The operators and the types are keywords as well, one for each.
  | logic (op : LogicOp)
  | negation
  | type (varType : VarType)
deriving DecidableEq, Repr

/-- The spelling of a keyword. -/
def Keyword.spelling : Keyword → String
  | .begins => "BEGIN"
  | .ends => "END"
  | .code => "CODE"
  | .ifs => "IF"
  | .elses => "ELSE"
  | .whiles => "WHILE"
  | .switches => "SWITCH"
  | .cases => "CASE"
  | .defaults => "DEFAULT"
  | .breaks => "BREAK"
  | .display => "DISPLAY"
  | .scan => "SCAN"
  | .logic op => op.symbol
  | .negation => "NOT"
  | .type varType => varType.name

/-- All keywords. None is the beginning of another. -/
def Keyword.all : List Keyword :=
  -- Where several could be read, the one that is earlier in the list is tried first.
  [.begins, .ends, .code, .ifs, .elses, .whiles, .switches, .cases, .defaults, .breaks, .display,
    .scan, .logic .and, .logic .or, .negation, .type .int, .type .float, .type .bool, .type .char,
    .type .string]

/-- A token. -/
inductive Token where
  | keyword (word : Keyword)
  | name (spelling : List Char)
  | integer (digits : List Char)
  | decimal (digits : List Char)
  | character (c : Char)
  /-- A text in double quotes. -/
  | quotation (content : List Char)
  /-- A text in brackets. -/
  | bracketed (content : List Char)
  | compare (op : CompareOp)
  /-- Multiplication, division or remainder. -/
  | scale (op : ArithOp)
  | plus
  | minus
  | ampersand
  | dollar
  | leftParen
  | rightParen
  | leftBrace
  | rightBrace
  | colon
  | comma
  | equals
  /-- The end of a statement: line ends, semicolons, and the layout among them. -/
  | separator
deriving DecidableEq, Repr

/-- The classes by which a place in a program says which tokens may follow. -/
inductive TokenClass where
  | keyword (word : Keyword)
  | name
  | integer
  | decimal
  | character
  | quotation
  | bracketed
  | compare
  | scale
  | plus
  | minus
  | ampersand
  | dollar
  | leftParen
  | rightParen
  | leftBrace
  | rightBrace
  | colon
  | comma
  | equals
  | separator
deriving DecidableEq, Repr

namespace Token

/-- The class of a token. -/
def tokenClass : Token → TokenClass
  | .keyword word => .keyword word
  | .name _ => .name
  | .integer _ => .integer
  | .decimal _ => .decimal
  | .character _ => .character
  | .quotation _ => .quotation
  | .bracketed _ => .bracketed
  | .compare _ => .compare
  | .scale _ => .scale
  | .plus => .plus
  | .minus => .minus
  | .ampersand => .ampersand
  | .dollar => .dollar
  | .leftParen => .leftParen
  | .rightParen => .rightParen
  | .leftBrace => .leftBrace
  | .rightBrace => .rightBrace
  | .colon => .colon
  | .comma => .comma
  | .equals => .equals
  | .separator => .separator

/-- The value of a literal token. A quoted truth word is a truth value. A number out of range has a
stand-in here, because a program that holds one is refused. -/
def literal? : Token → Option Value
  -- A literal that is read at all has been found to be in range.
  | .integer digits => some (.ofInt (Nat.ofDigitChars 10 digits 0))
  | .decimal digits =>
    some (((Decimal.read? digits).bind fun d => Value.ofDouble? d.toDouble).getD .absent)
  | .character c => some (.character c)
  | .quotation content =>
    -- Only double quotes make a truth value of a word.
    match truthWord? content with
    | some b => some (.boolean b)
    | none => some (.text (String.ofList content))
  | .bracketed content => some (.text (String.ofList content))
  | _ => none

/-- Why a token is a literal out of range. A minus sign before a literal is no part of it. -/
def rangeError? : Token → Option SyntaxCause
  -- The digits have no sign, so that only the greatest number bounds them.
  | .integer digits =>
    if fitsInt32 (Nat.ofDigitChars 10 digits 0) then none
    else some (.integerRange (String.ofList digits))
  | .decimal digits =>
    match (Decimal.read? digits).bind fun d => Value.ofDouble? d.toDouble with
    | some _ => none
    | none => some (.floatRange (String.ofList digits))
  | _ => none

/-- The operator with two operands that a token stands for between them. -/
def binaryOp? : Token → Option BinaryOp
  -- What the token is before an operand is said apart.
  | .keyword (.logic op) => some (.logic op)
  | .compare op => some (.compare op)
  | .scale op => some (.arith op)
  | .plus => some (.arith .add)
  | .minus => some (.arith .sub)
  | .ampersand => some (.join .beside)
  | .dollar => some (.join .below)
  | _ => none

/-- The operator with one operand that a token stands for before it. -/
def unaryOp? : Token → Option UnaryOp
  | .keyword .negation => some .not
  | .plus => some (.sign .plus)
  | .minus => some (.sign .minus)
  | _ => none

end Token

end Pseudocode
