import Pseudocode.Source.Mode

/-! How a token moves the reading of a program on. -/

namespace Pseudocode

/-- A stage in the reading of a program. -/
structure Stage where
  /-- Where the reading stands in the innermost open list of statements. -/
  mode : Mode
  /-- The open lists of statements, the innermost first. -/
  blocks : List OpenBlock

/-- The stage at the start of a source text. -/
def Stage.initial : Stage := ⟨.opening false, []⟩

/-- The switch with one more complete case. -/
def OpenSwitch.addCase (switch : OpenSwitch) (value : Expr) (body : List Stmt) : OpenSwitch :=
  { switch with cases := .mk value body :: switch.cases }

/-- The statement that a switch makes with its default, if it has one. -/
def OpenSwitch.toStmt (switch : OpenSwitch) (default : Option (List Stmt)) : Stmt :=
  .switch switch.subject switch.cases.reverse default

namespace OpenBlock

/-- The statements of a block. -/
def body (block : OpenBlock) : List Stmt :=
  block.done.reverse

/-- The keyword that must follow the `END` of a block. -/
def word (block : OpenBlock) : Keyword :=
  match block.owner with
  | .program => .code
  | .ifs _ _ | .elses _ => .ifs
  | .whiles _ => .whiles
  | .caseOf _ _ | .defaultOf _ => .switches

/-- Where the reading stands after the end of a block. -/
def after (block : OpenBlock) : Mode :=
  match block.owner with
  -- The end of the outermost list is the end of the program.
  | .program => .ended block.body false
  | .ifs before test => .conditionClosed (.extend test block.body before)
  -- Behind the body of an `ELSE` another one is looked for, but not accepted.
  | .elses chain => .finished (chain.toStmt (.block block.body)) true
  | .whiles test => .finished (.repeatWhile test block.body) block.braced
  -- The last case is added to the switch, which has no default then.
  | .caseOf switch value => .finished ((switch.addCase value block.body).toStmt none) false
  | .defaultOf switch => .finished (switch.toStmt (some block.body)) false

end OpenBlock

/-- Read a token that ends or separates statements, where the innermost list is complete up to
here. -/
def endList (blocks : List OpenBlock) (token : Token) : Option Stage :=
  match blocks with
  -- Outside the program no statement can end.
  | [] => none
  | block :: outer =>
    match token with
    -- The list goes on, with a separator behind its last statement.
    | .separator => some ⟨.statement .between, blocks⟩
    -- A brace closes what a brace has opened, and `END` what a word has opened.
    | .rightBrace => if block.braced then some ⟨block.after, outer⟩ else none
    | .keyword .ends =>
      if block.braced then none else some ⟨.closing block.word block.after, outer⟩
    -- A further case or a default ends the list of the case before it.
    | .keyword .cases =>
      match block.owner with
      | .caseOf switch value =>
        some ⟨.operand (.caseValue (switch.addCase value block.body)) [], outer⟩
      | _ => none
    | .keyword .defaults =>
      match block.owner with
      | .caseOf switch value => some ⟨.defaultColon (switch.addCase value block.body), outer⟩
      | _ => none
    | _ => none

/-- Read a token after a complete statement. -/
def endStatement (blocks : List OpenBlock) (stmt : Stmt) (token : Token) : Option Stage :=
  match blocks with
  | [] => none
  -- The statement joins the innermost list, and then the token is read as one after a list.
  | block :: outer => endList ({ block with done := stmt :: block.done } :: outer) token

/-- Read a token where a statement may start. -/
def startStatement (place : Place) (blocks : List OpenBlock) (token : Token) : Option Stage :=
  match token with
  -- Whether the name is followed by an equals sign is left to the next token.
  | .name spelling => some ⟨.target (String.ofList spelling), blocks⟩
  | .keyword (.type type) => some ⟨.typed type [], blocks⟩
  | .keyword .ifs => some ⟨.condition (.ifTest none), blocks⟩
  | .keyword .whiles => some ⟨.condition .whileTest, blocks⟩
  | .keyword .switches => some ⟨.condition .subject, blocks⟩
  -- No `ELSE` is looked for behind a statement that is one word.
  | .keyword .breaks => some ⟨.finished .breakOut false, blocks⟩
  | .keyword .display => some ⟨.displayColon, blocks⟩
  | .keyword .scan => some ⟨.scanColon, blocks⟩
  -- Only some places leave room for a separator before the first statement.
  | .separator =>
    match place with
    | .braceStart => some ⟨.statement .braceBroken, blocks⟩
    | .caseStart => some ⟨.statement .between, blocks⟩
    | .defaultStart => some ⟨.statement .defaultBroken, blocks⟩
    | _ => none
  | _ => endList blocks token

/-- Read a token where an operand must follow. -/
def readOperand (purpose : Purpose) (pending : List Pending) (blocks : List OpenBlock)
    (token : Token) : Option Stage :=
  match token with
  | .name spelling =>
    let name := String.ofList spelling
    match purpose, pending with
    -- At the front of an assigned value, a name may also be a further target.
    | .assign targets, [] => some ⟨.perhapsTarget targets name, blocks⟩
    | _, _ => some ⟨.operator purpose pending (.ident (.name name)), blocks⟩
  | .dollar => some ⟨.operator purpose pending .newline, blocks⟩
  | .leftParen => some ⟨.operand purpose (.paren :: pending), blocks⟩
  | _ =>
    -- A literal is told from its token alone, as is an operator with one operand.
    match token.literal?, token.unaryOp? with
    | some value, _ => some ⟨.operator purpose pending (.literal (.value value)), blocks⟩
    | none, some op => some ⟨.operand purpose (.unary op :: pending), blocks⟩
    | none, none => none

/-- The statement that a complete expression makes, when it is the last part of one. -/
def Purpose.toStmt? (purpose : Purpose) (expr : Expr) : Option Stmt :=
  match purpose with
  | .initial type before name =>
    -- The declarators have been read with the latest first.
    some (.declare (.known type) (⟨.ofName name, some expr⟩ :: before).reverse)
  | .assign targets => some (.assign (targets.reverse.map .ofName) expr)
  | .display => some (.display expr)
  | _ => none

/-- The construct that a complete condition or subject leads to. -/
def Purpose.toConstruct? (purpose : Purpose) (expr : Expr) : Option Construct :=
  match purpose with
  | .ifTest before => some (.ifs before expr)
  | .whileTest => some (.whiles expr)
  | .subject => some (.switches expr)
  | _ => none

/-- Read a token after a complete expression. -/
def endExpression (purpose : Purpose) (expr : Expr) (blocks : List OpenBlock) (token : Token) :
    Option Stage :=
  match token with
  -- A closing parenthesis without an opening one ends a condition or a subject.
  | .rightParen => (purpose.toConstruct? expr).map fun construct => ⟨.body construct false, blocks⟩
  -- A comma goes on only in a declaration.
  | .comma =>
    match purpose with
    | .initial type before name =>
      some ⟨.typed type (⟨.ofName name, some expr⟩ :: before), blocks⟩
    | _ => none
  -- A colon goes on only after the value of a case.
  | .colon =>
    match purpose with
    | .caseValue switch =>
      some ⟨.statement .caseStart, ⟨.caseOf switch expr, switch.braced, []⟩ :: blocks⟩
    | _ => none
  -- Everything else ends the expression with its statement.
  | _ => (purpose.toStmt? expr).bind fun stmt => endStatement blocks stmt token

/-- Read a token after an operand. -/
def readOperator (purpose : Purpose) (pending : List Pending) (left : Expr)
    (blocks : List OpenBlock) (token : Token) : Option Stage :=
  match token.binaryOp? with
  | some op =>
    -- Operators that bind as tightly take their operands from the left.
    let (operand, rest) := collapse op.tier left pending
    some ⟨.operand purpose (.binary op operand :: rest), blocks⟩
  | none =>
    -- Without an operator, all that waits since the last open parenthesis is put together.
    match collapse 0 left pending, token with
    -- The parenthesis is closed, and what is inside has become one operand.
    | (expr, .paren :: rest), .rightParen => some ⟨.operator purpose rest expr, blocks⟩
    | (expr, []), _ => endExpression purpose expr blocks token
    -- An open parenthesis is missing its counterpart.
    | _, _ => none

/-- Open the body of a construct. -/
def openBody (construct : Construct) (braced : Bool) (blocks : List OpenBlock) : Stage :=
  let place : Place := if braced then .braceStart else .blockStart
  match construct with
  | .ifs before test => ⟨.statement place, ⟨.ifs before test, braced, []⟩ :: blocks⟩
  | .elses chain => ⟨.statement place, ⟨.elses chain, braced, []⟩ :: blocks⟩
  | .whiles test => ⟨.statement place, ⟨.whiles test, braced, []⟩ :: blocks⟩
  -- The body of a switch has no statements of its own, but cases.
  | .switches subject => ⟨.cases ⟨subject, braced, []⟩ braced, blocks⟩

/-- Read a token before the first case of a switch. -/
def readCases (switch : OpenSwitch) (blocks : List OpenBlock) (token : Token) : Option Stage :=
  match token with
  | .keyword .cases => some ⟨.operand (.caseValue switch) [], blocks⟩
  | .keyword .defaults => some ⟨.defaultColon switch, blocks⟩
  -- Only one separator may stand before the first case.
  | .separator => some ⟨.cases switch false, blocks⟩
  | .rightBrace =>
    -- A switch without cases is complete.
    if switch.braced then some ⟨.finished (switch.toStmt none) false, blocks⟩ else none
  | .keyword .ends =>
    if switch.braced then none
    else some ⟨.closing .switches (.finished (switch.toStmt none) false), blocks⟩
  | _ => none

/-- Read one token. -/
def Stage.step (stage : Stage) (token : Token) : Option Stage :=
  let blocks := stage.blocks
  match stage.mode, token with
  -- One separator may come before the program.
  | .opening _, .separator => some ⟨.opening true, blocks⟩
  | .opening _, .keyword .begins => some ⟨.openingWord, blocks⟩
  | .openingWord, .keyword .code => some ⟨.openingBreak, blocks⟩
  -- The statements of the program are the outermost list.
  | .openingBreak, .separator => some ⟨.statement .blockStart, ⟨.program, false, []⟩ :: blocks⟩
  -- Statements are read by their first token.
  | .statement place, token => startStatement place blocks token
  | .typed type before, .name spelling =>
    some ⟨.declared type before (String.ofList spelling), blocks⟩
  | .declared type before name, .equals => some ⟨.operand (.initial type before name) [], blocks⟩
  | .declared type before name, .comma =>
    some ⟨.typed type (⟨.ofName name, none⟩ :: before), blocks⟩
  | .declared type before name, token =>
    endStatement blocks (.declare (.known type) (⟨.ofName name, none⟩ :: before).reverse) token
  | .target name, .equals => some ⟨.operand (.assign [name]) [], blocks⟩
  | .perhapsTarget targets name, .equals => some ⟨.operand (.assign (name :: targets)) [], blocks⟩
  -- No equals sign follows, so that the name is an operand after all.
  | .perhapsTarget targets name, token =>
    readOperator (.assign targets) [] (.ident (.name name)) blocks token
  | .displayColon, .colon => some ⟨.operand .display [], blocks⟩
  | .scanColon, .colon => some ⟨.scanning [], blocks⟩
  | .scanning names, .name spelling => some ⟨.scanned (String.ofList spelling :: names), blocks⟩
  | .scanned names, .comma => some ⟨.scanning names, blocks⟩
  | .scanned names, token => endStatement blocks (.scan (names.reverse.map .ofName)) token
  | .condition purpose, .leftParen => some ⟨.operand purpose [], blocks⟩
  | .operand purpose pending, token => readOperand purpose pending blocks token
  | .operator purpose pending left, token => readOperator purpose pending left blocks token
  | .body construct _, .separator => some ⟨.body construct true, blocks⟩
  | .body construct _, .leftBrace => some (openBody construct true blocks)
  | .body construct _, .keyword .begins => some ⟨.bodyWord construct, blocks⟩
  -- The word after `BEGIN` must be that of the construct.
  | .bodyWord construct, .keyword word =>
    if word = construct.word then some ⟨.bodyBreak construct, blocks⟩ else none
  | .bodyBreak construct, .separator => some (openBody construct false blocks)
  | .cases switch _, token => readCases switch blocks token
  | .defaultColon switch, .colon =>
    some ⟨.statement .defaultStart, ⟨.defaultOf switch, switch.braced, []⟩ :: blocks⟩
  | .closing expected next, .keyword word => if word = expected then some ⟨next, blocks⟩ else none
  -- The modes after a statement differ in whether `ELSE` may go on with it.
  | .finished stmt _, token => endStatement blocks stmt token
  | .conditionClosed chain, .keyword .elses => some ⟨.elseBody chain false, blocks⟩
  -- Without `ELSE`, nothing is done when the conditions do not hold.
  | .conditionClosed chain, token => endStatement blocks (chain.toStmt .nothing) token
  | .elseBody chain _, .separator => some ⟨.elseBody chain true, blocks⟩
  -- An `ELSE` with an `IF` behind it goes on with the chain of conditions.
  | .elseBody chain _, .keyword .ifs => some ⟨.condition (.ifTest (some chain)), blocks⟩
  | .elseBody chain _, .leftBrace => some (openBody (.elses chain) true blocks)
  | .elseBody chain _, .keyword .begins => some ⟨.bodyWord (.elses chain), blocks⟩
  | .ended body _, .separator => some ⟨.ended body true, blocks⟩
  -- No other token can be read where the reading stands.
  | _, _ => none

/-- The program that has been read, if the source text may end here. -/
def Stage.program? (stage : Stage) : Option Program :=
  match stage.mode with
  | .ended body _ => some ⟨body⟩
  | _ => none

end Pseudocode
