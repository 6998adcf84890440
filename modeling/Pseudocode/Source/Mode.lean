import Pseudocode.Source.Token
import Pseudocode.Syntax.Tree

/-! Where the reading of a program stands: the constructs that are open, and what may follow. -/

namespace Pseudocode

/-- How tightly an operator with two operands binds. -/
def BinaryOp.tier : BinaryOp → Nat
  -- From the loosest to the tightest: logic, comparisons, sums and joins, products.
  | .logic _ => 1
  | .compare _ => 3
  | .join _ | .arith .add | .arith .sub => 4
  | .arith _ => 5
  -- No source text has an unknown operator, which only a tree can have.
  | .unknown _ => 0

/-- How tightly an operator with one operand binds. -/
def UnaryOp.tier : UnaryOp → Nat
  -- A negation stands between logic and comparisons, and a sign binds before everything else.
  | .not => 2
  | .sign _ => 6
  | .unknown _ => 0

/-- Something in an expression that waits for what follows it. -/
inductive Pending where
  /-- An operator that has its left operand. -/
  | binary (op : BinaryOp) (left : Expr)
  /-- An operator with one operand. -/
  | unary (op : UnaryOp)
  /-- An open parenthesis. -/
  | paren

/-- Give an operand to the waiting operators that bind at least as tightly as the given tier, the
innermost first. An open parenthesis holds back those before it. -/
def collapse (tier : Nat) (operand : Expr) : List Pending → Expr × List Pending
  | .binary op left :: rest =>
    -- An operator that binds less tightly waits for the rest of the operand.
    if tier ≤ op.tier then collapse tier (.binary op left operand) rest
    else (operand, .binary op left :: rest)
  | .unary op :: rest =>
    if tier ≤ op.tier then collapse tier (.unary op operand) rest
    else (operand, .unary op :: rest)
  -- What is in parentheses does not go to an operator before them.
  | .paren :: rest => (operand, .paren :: rest)
  | [] => (operand, [])

/-- The conditions of an `IF` with their bodies, as far as they have been read. -/
structure IfChain where
  /-- The condition and body of the `IF` itself. -/
  first : Expr × List Stmt
  /-- Those of each `ELSE IF`, the latest first. -/
  more : List (Expr × List Stmt)

/-- Add a condition with its body to those before it, if there are any. -/
def IfChain.extend (test : Expr) (body : List Stmt) : Option IfChain → IfChain
  | none => ⟨(test, body), []⟩
  | some chain => { chain with more := (test, body) :: chain.more }

/-- The statement that conditions make with what is left to be done otherwise. -/
def IfChain.toStmt (chain : IfChain) (otherwise : Otherwise) : Stmt :=
  .ifElse chain.first.1 chain.first.2
    -- The latest condition is the innermost one, and is the first to be put around the rest.
    (chain.more.foldl (fun after (test, body) => .elseIf test body after) otherwise)

/-- A switch whose end has not been read. -/
structure OpenSwitch where
  /-- The subject. -/
  subject : Expr
  /-- Whether its body stands in braces. -/
  braced : Bool
  /-- The cases that are complete, the latest first. -/
  cases : List Case

/-- A construct whose body must follow. -/
inductive Construct where
  | ifs (before : Option IfChain) (test : Expr)
  | elses (chain : IfChain)
  | whiles (test : Expr)
  | switches (subject : Expr)

/-- The keyword that names a construct after `BEGIN` and `END`. -/
def Construct.word : Construct → Keyword
  -- `ELSE` has no word of its own: its body ends with that of the `IF`.
  | .ifs _ _ | .elses _ => .ifs
  | .whiles _ => .whiles
  | .switches _ => .switches

/-- What a list of statements belongs to. -/
inductive Owner where
  -- A program and a default have nothing to keep, and the others keep what was read before the
  -- list.
  | program
  | ifs (before : Option IfChain) (test : Expr)
  | elses (chain : IfChain)
  | whiles (test : Expr)
  | caseOf (switch : OpenSwitch) (value : Expr)
  | defaultOf (switch : OpenSwitch)

/-- A list of statements whose end has not been read. -/
structure OpenBlock where
  /-- What it belongs to. -/
  owner : Owner
  /-- Whether it ends with a brace. -/
  braced : Bool
  /-- The statements that are complete, the latest first. -/
  done : List Stmt

/-- What an expression is read for. -/
inductive Purpose where
  -- What has been read before the expression is kept with its purpose.
  | initial (type : VarType) (before : List Declarator) (name : String)
  | assign (targets : List String)
  | display
  | ifTest (before : Option IfChain)
  | whileTest
  | subject
  | caseValue (switch : OpenSwitch)

/-- The places at which a statement may start, which differ in what may end the list there. -/
inductive Place where
  /-- After the separator that opens a keyword block. -/
  | blockStart
  /-- After the brace that opens a block. -/
  | braceStart
  /-- After that brace and a separator. -/
  | braceBroken
  /-- After the colon of a case. -/
  | caseStart
  /-- After the colon of a default. -/
  | defaultStart
  /-- After that colon and a separator. -/
  | defaultBroken
  /-- After the separator that follows a statement, or the colon of a case and a separator. -/
  | between
deriving DecidableEq, Repr

/-- Where the reading stands within the innermost open list of statements. Lists of names and
targets stand with the latest first. -/
inductive Mode where
  /-- Before `BEGIN CODE`, perhaps after a separator. -/
  -- A program starts with its two words and a separator.
  | opening (broken : Bool)
  /-- After the `BEGIN` of the program. -/
  | openingWord
  /-- After `BEGIN CODE`. -/
  | openingBreak
  /-- Where a statement may start. -/
  -- Statements are told apart by their first token.
  | statement (place : Place)
  /-- Where a name must be declared. -/
  | typed (type : VarType) (before : List Declarator)
  /-- After a declared name. -/
  | declared (type : VarType) (before : List Declarator) (name : String)
  /-- After the name that starts an assignment. -/
  | target (name : String)
  /-- After a name that is either a further target or the start of the assigned value. -/
  | perhapsTarget (targets : List String) (name : String)
  /-- After `DISPLAY`. -/
  | displayColon
  /-- After `SCAN`. -/
  | scanColon
  /-- Where a name must be scanned. -/
  | scanning (names : List String)
  /-- After a scanned name. -/
  | scanned (names : List String)
  /-- After the keyword of a condition or switch. -/
  -- Conditions and subjects stand in parentheses.
  | condition (purpose : Purpose)
  /-- Where an operand must follow. -/
  | operand (purpose : Purpose) (pending : List Pending)
  /-- After an operand. -/
  | operator (purpose : Purpose) (pending : List Pending) (left : Expr)
  /-- Before a body, perhaps after a separator. -/
  -- A body starts with `BEGIN` and its word, or with a brace.
  | body (construct : Construct) (broken : Bool)
  /-- After the `BEGIN` of a body. -/
  | bodyWord (construct : Construct)
  /-- After the `BEGIN` of a body and its word. -/
  | bodyBreak (construct : Construct)
  /-- Before the first case of a switch; a separator may follow or not. -/
  | cases (switch : OpenSwitch) (mayBreak : Bool)
  /-- After `DEFAULT`. -/
  | defaultColon (switch : OpenSwitch)
  /-- After `END`: the word that must follow, and what comes after it. -/
  | closing (word : Keyword) (next : Mode)
  /-- After a complete statement. Behind some of them `ELSE` is looked for, though none can be
  accepted. -/
  | finished (stmt : Stmt) (seesElse : Bool)
  /-- After the body of a condition, where `ELSE` may follow. -/
  | conditionClosed (chain : IfChain)
  /-- After `ELSE`, perhaps with a separator. -/
  | elseBody (chain : IfChain) (broken : Bool)
  /-- After `END CODE`, perhaps with a separator. -/
  | ended (body : List Stmt) (broken : Bool)

/-- Whether `NOT` may stand before an operand: not after an operator that binds more tightly. -/
def negationFits : List Pending → Bool
  -- After an operator that binds more tightly than a negation, the negation has no place.
  | .binary op _ :: _ => op.tier ≤ UnaryOp.not.tier
  | .unary op :: _ => op.tier ≤ UnaryOp.not.tier
  | _ => true

/-- Whether a token may end a list of statements or separate two of them. -/
def TokenClass.endsStatement : TokenClass → Bool
  -- Which of these can end the list at all is for the block to say.
  | .separator | .rightBrace | .keyword .ends | .keyword .cases | .keyword .defaults => true
  | _ => false

/-- Whether a token may start a statement. -/
def TokenClass.startsStatement : TokenClass → Bool
  -- A statement that starts with a name is an assignment.
  | .name | .keyword (.type _) | .keyword .ifs | .keyword .whiles | .keyword .switches
  | .keyword .breaks | .keyword .display | .keyword .scan => true
  | _ => false

/-- Whether a token may start an operand, `NOT` apart. -/
def TokenClass.startsOperand : TokenClass → Bool
  -- Plus and minus are signs here.
  | .name | .integer | .decimal | .character | .quotation | .bracketed | .dollar | .leftParen
  | .plus | .minus => true
  | _ => false

/-- Whether a token may stand between two operands. -/
def TokenClass.isBinary : TokenClass → Bool
  | .keyword (.logic _) | .compare | .scale | .plus | .minus | .ampersand | .dollar => true
  -- An ampersand and a dollar sign join two operands.
  | _ => false

/-- Whether a token may end a list of statements at the given place. -/
def Place.endsWith : Place → TokenClass → Bool
  -- A block may be empty, but the separator that opens it must be the only one.
  | .blockStart, c => c = .keyword .ends
  | .braceStart, c => c = .rightBrace || c = .separator
  | .braceBroken, c => c = .rightBrace
  -- A case may be empty in whatever way it ends.
  | .caseStart, c => c.endsStatement
  | .defaultStart, c => c = .keyword .ends || c = .rightBrace || c = .separator
  | .defaultBroken, c => c = .keyword .ends || c = .rightBrace
  -- A statement must stand between two separators.
  | .between, c => c.endsStatement && c != .separator

/-- Whether tokens of a class are looked for. Some that are found cannot be accepted after all. -/
def Mode.admits : Mode → TokenClass → Bool
  | .opening broken, c => c = .keyword .begins || (!broken && c = .separator)
  | .openingWord, c => c = .keyword .code
  | .openingBreak, c => c = .separator
  -- Where a statement may start, the list may end.
  | .statement place, c => c.startsStatement || place.endsWith c
  | .typed _ _, c => c = .name
  | .declared _ _ _, c => c = .equals || c = .comma || c.endsStatement
  | .target _, c => c = .equals
  -- The name may also turn out to be the first operand of the assigned value.
  | .perhapsTarget _ _, c => c = .equals || c.isBinary || c.endsStatement
  | .displayColon, c => c = .colon
  | .scanColon, c => c = .colon
  | .scanning _, c => c = .name
  | .scanned _, c => c = .comma || c.endsStatement
  | .condition _, c => c = .leftParen
  | .operand _ pending, c =>
    -- A negation is looked for only where it fits.
    c.startsOperand || (c = .keyword .negation && negationFits pending)
  | .operator _ _ _, c =>
    -- More is looked for than every purpose accepts.
    c.isBinary || c.endsStatement || c = .comma || c = .colon || c = .rightParen
  | .body _ broken, c =>
    c = .keyword .begins || c = .leftBrace || (!broken && c = .separator)
  | .bodyWord construct, c => c = .keyword construct.word
  | .bodyBreak _, c => c = .separator
  | .cases switch mayBreak, c =>
    c = .keyword .cases || c = .keyword .defaults || (mayBreak && c = .separator) ||
      -- A switch ends as it has started, with a brace or with its words.
      c = (if switch.braced then .rightBrace else .keyword .ends)
  | .defaultColon _, c => c = .colon
  | .closing word _, c => c = .keyword word
  | .finished _ seesElse, c => c.endsStatement || (seesElse && c = .keyword .elses)
  | .conditionClosed _, c => c.endsStatement || c = .keyword .elses
  | .elseBody _ broken, c =>
    c = .keyword .begins || c = .keyword .ifs || c = .leftBrace || (!broken && c = .separator)
  | .ended _ broken, c => !broken && c = .separator

end Pseudocode
