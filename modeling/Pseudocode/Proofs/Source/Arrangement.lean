import Pseudocode.Proofs.Source.Expression

/-! The arrangements of statements as tokens: every choice between keywords and braces, and of where
separators stand. Each of them is read as the statements that it arranges. -/

namespace Pseudocode

/-- A separator that may stand at a place or not. -/
def breaks (broken : Bool) : List Token :=
  if broken then [.separator] else []

/-- How a body is enclosed: by keywords, or in braces of which the first may have a separator after
it. -/
inductive Enclosure where
  | words
  | braces (broken : Bool)

namespace Enclosure

/-- What opens a body. -/
def opening (word : Keyword) : Enclosure → List Token
  | .words => [.keyword .begins, .keyword word, .separator]
  | .braces broken => .leftBrace :: breaks broken

/-- What closes a body. -/
def closing (word : Keyword) : Enclosure → List Token
  | .words => [.keyword .ends, .keyword word]
  | .braces _ => [.rightBrace]

/-- Whether a body stands in braces. -/
def braced : Enclosure → Bool
  | .words => false
  | .braces _ => true

/-- A body in its enclosure, perhaps with a separator before it. -/
def around (enclosure : Enclosure) (word : Keyword) (broken : Bool) (inner : List Token) :
    List Token :=
  breaks broken ++ (enclosure.opening word ++ (inner ++ enclosure.closing word))

end Enclosure

/-- Some items with commas between them. -/
inductive Listed {α : Type} (item : α → List Token → Prop) : List α → List Token → Prop where
  -- The relation to tokens is that of the single item, so that one definition does for both lists.
  | last {a : α} {tokens : List Token} (one : item a tokens) : Listed item [a] tokens
  | more {a : α} {rest : List α} {tokens after : List Token} (one : item a tokens)
    (others : Listed item rest after) : Listed item (a :: rest) (tokens ++ .comma :: after)

/-- A name that is given a value. -/
inductive Named : Target → List Token → Prop where
  | mk {spelling : List Char} (identifier : IsIdentifier spelling) :
    -- Any identifier may name a variable; the keywords are not among them.
    Named (.ofName (String.ofList spelling)) [.name spelling]

/-- A declared name, perhaps with an initial value. -/
inductive Declared : Declarator → List Token → Prop where
  | bare {spelling : List Char} (identifier : IsIdentifier spelling) :
    Declared ⟨.ofName (String.ofList spelling), none⟩ [.name spelling]
  | initial {spelling : List Char} {value : Expr} {tokens : List Token}
    (identifier : IsIdentifier spelling) (written : Written 0 value tokens) :
    Declared ⟨.ofName (String.ofList spelling), some value⟩ (.name spelling :: .equals :: tokens)

/-- Names that are all given one value. -/
inductive Assigned : List Target → List Token → Prop where
  | last {target : Target} {tokens : List Token} (one : Named target tokens) :
    Assigned [target] (tokens ++ [.equals])
  | more {target : Target} {rest : List Target} {tokens after : List Token}
    (one : Named target tokens) (others : Assigned rest after) :
    Assigned (target :: rest) (tokens ++ .equals :: after)

/-- A condition or subject in its parentheses. -/
inductive Tested : Expr → List Token → Prop where
  -- The parentheses belong to the statement, and those of the expression stand inside them.
  | mk {test : Expr} {tokens : List Token} (written : Written 0 test tokens) :
    Tested test (.leftParen :: (tokens ++ [.rightParen]))

mutual

/-- The arrangements of a statement. -/
inductive Arranged : Stmt → List Token → Prop where
  | declare {type : VarType} {declarators : List Declarator} {tokens : List Token}
    (listed : Listed Declared declarators tokens) :
    -- A declaration in source text has a known type.
    Arranged (.declare (.known type) declarators) (.keyword (.type type) :: tokens)
  | assign {targets : List Target} {value : Expr} {names tokens : List Token}
    (assigned : Assigned targets names) (written : Written 0 value tokens) :
    Arranged (.assign targets value) (names ++ tokens)
  | ifElse {test : Expr} {body : List Stmt} {otherwise : Otherwise}
    {condition inner alternative : List Token} (tested : Tested test condition)
    (enclosure : Enclosure) (broken : Bool) (block : ArrangedAll body inner)
    (other : ArrangedOtherwise otherwise alternative) :
    Arranged (.ifElse test body otherwise)
      (.keyword .ifs :: (condition ++ (enclosure.around .ifs broken inner ++ alternative)))
  | repeatWhile {test : Expr} {body : List Stmt} {condition inner : List Token}
    (tested : Tested test condition) (enclosure : Enclosure) (broken : Bool)
    (block : ArrangedAll body inner) :
    Arranged (.repeatWhile test body)
      -- A loop has nothing after its body, unlike a condition.
      (.keyword .whiles :: (condition ++ enclosure.around .whiles broken inner))
  | switch {subject : Expr} {cases : List Case} {default : Option (List Stmt)}
    {condition inner : List Token} (tested : Tested subject condition) (enclosure : Enclosure)
    (broken : Bool) (clauses : ArrangedCases cases default inner) :
    Arranged (.switch subject cases default)
      (.keyword .switches :: (condition ++ enclosure.around .switches broken inner))
  -- A break stands wherever a statement may; that it is misplaced is seen only in the run.
  | breakOut : Arranged .breakOut [.keyword .breaks]
  | display {value : Expr} {tokens : List Token} (written : Written 0 value tokens) :
    Arranged (.display value) (.keyword .display :: .colon :: tokens)
  | scan {names : List Target} {tokens : List Token} (listed : Listed Named names tokens) :
    Arranged (.scan names) (.keyword .scan :: .colon :: tokens)

/-- The arrangements of some statements: with separators between them, and perhaps one at the end.
-/
inductive ArrangedAll : List Stmt → List Token → Prop where
  | none : ArrangedAll [] []
  | last {stmt : Stmt} {tokens : List Token} (one : Arranged stmt tokens) :
    -- A separator after the last statement is the case `more` with nothing after it.
    ArrangedAll [stmt] tokens
  | more {stmt : Stmt} {rest : List Stmt} {tokens after : List Token} (one : Arranged stmt tokens)
    (others : ArrangedAll rest after) : ArrangedAll (stmt :: rest) (tokens ++ .separator :: after)

/-- The arrangements of what is done when a condition does not hold. -/
inductive ArrangedOtherwise : Otherwise → List Token → Prop where
  | nothing : ArrangedOtherwise .nothing []
  | block {body : List Stmt} {inner : List Token} (enclosure : Enclosure) (broken : Bool)
    (block : ArrangedAll body inner) :
    -- The body of an `ELSE` is closed by the word of the condition.
    ArrangedOtherwise (.block body) (.keyword .elses :: enclosure.around .ifs broken inner)
  | elseIf {test : Expr} {body : List Stmt} {otherwise : Otherwise}
    {condition inner alternative : List Token} (apart : Bool) (tested : Tested test condition)
    (enclosure : Enclosure) (broken : Bool) (block : ArrangedAll body inner)
    (other : ArrangedOtherwise otherwise alternative) :
    ArrangedOtherwise (.elseIf test body otherwise)
      (.keyword .elses :: (breaks apart ++ .keyword .ifs ::
        (condition ++ (enclosure.around .ifs broken inner ++ alternative))))

/-- The arrangements of the cases of a switch and its default. -/
inductive ArrangedCases : List Case → Option (List Stmt) → List Token → Prop where
  | none : ArrangedCases [] none []
  | default {body : List Stmt} {inner : List Token} (broken : Bool)
    (block : ArrangedAll body inner) :
    -- A default stands at the end, and nothing comes after its statements.
    ArrangedCases [] (some body) (.keyword .defaults :: .colon :: (breaks broken ++ inner))
  | more {value : Expr} {body : List Stmt} {cases : List Case} {default : Option (List Stmt)}
    {tokens inner after : List Token} (written : Written 0 value tokens) (broken : Bool)
    (block : ArrangedAll body inner) (others : ArrangedCases cases default after) :
    ArrangedCases (.mk value body :: cases) default
      (.keyword .cases :: (tokens ++ .colon :: (breaks broken ++ (inner ++ after))))

end

/-- A stage after a complete statement: whatever may end a statement leads on from there. -/
def Stage.Finishes (stage : Stage) (blocks : List OpenBlock) (stmt : Stmt) : Prop :=
  ∀ token next, token.tokenClass.endsStatement = true →
    endStatement blocks stmt token = some next → stage.Takes token next

/-- A stage where a list of statements may end: whatever ends it at the place where it started leads
on from there. -/
def Stage.Closes (stage : Stage) (place : Place) (blocks : List OpenBlock) : Prop :=
  ∀ token next, place.endsWith token.tokenClass = true → token ≠ .separator →
    endList blocks token = some next → stage.Takes token next

/-- What ends a list at any place may end a statement. -/
theorem Place.endsStatement_of_endsWith {place : Place} {token : Token}
    (ends : place.endsWith token.tokenClass = true) :
    token.tokenClass.endsStatement = true := by
  -- Only the class of the token decides, and it may be any at first.
  generalize token.tokenClass = kind at ends
  cases place with
  | caseStart => exact ends
  | between => exact (Bool.and_eq_true_iff.mp ends).1
  -- At the start of a block only the word that closes it is let through.
  | blockStart | braceBroken =>
    obtain rfl := of_decide_eq_true ends
    rfl
  | braceStart | defaultBroken =>
    simp only [endsWith, Bool.or_eq_true, decide_eq_true_eq] at ends
    rcases ends with rfl | rfl <;> rfl
  | defaultStart =>
    simp only [endsWith, Bool.or_eq_true, decide_eq_true_eq] at ends
    rcases ends with (rfl | rfl) | rfl <;> rfl

/-- What ends a list where it starts ends it after a separator too. -/
theorem Place.between_endsWith {place : Place} {token : Token}
    (ends : place.endsWith token.tokenClass = true) (other : token ≠ .separator) :
    Place.between.endsWith token.tokenClass = true := by
  -- No other token has the class of a separator.
  have kind : token.tokenClass ≠ .separator := by
    intro same
    cases token with
    | separator => exact other rfl
    | _ => cases same
  simp [endsWith, endsStatement_of_endsWith ends, kind]

/-- A token that may end a statement is no literal. -/
theorem Token.rangeError?_of_endsStatement {token : Token}
    (ends : token.tokenClass.endsStatement = true) : token.rangeError? = none := by
  -- Only literals can be out of range, and none of them ends a statement.
  cases token with
  | integer | decimal => cases ends
  | _ => rfl

/-- Where a statement may start, the list may end. -/
theorem Stage.closes_statement (place : Place) (blocks : List OpenBlock) :
    Stage.Closes ⟨.statement place, blocks⟩ place blocks := by
  intro token next ends other onward
  have ending := Place.endsStatement_of_endsWith ends
  refine ⟨by simp [Mode.admits, ends], Token.rangeError?_of_endsStatement ending, ?_⟩
  -- At a statement, what ends the list is passed on to the list.
  cases token with
  | separator => exact absurd rfl other
  | rightBrace => exact onward
  | keyword word =>
    cases word with
    | ends | cases | defaults => exact onward
    | _ => cases ending
  | _ => cases ending

section Simple

variable {blocks : List OpenBlock} {stage : Stage} {tokens : List Token}

/-- After a complete statement it is finished. -/
theorem Stage.finishes_finished (stmt : Stmt) (seesElse : Bool) :
    Stage.Finishes ⟨.finished stmt seesElse, blocks⟩ blocks stmt := by
  -- The stage after a statement does nothing by itself but to let the list go on.
  intro token next ends onward
  exact ⟨by simp [Mode.admits, ends], Token.rangeError?_of_endsStatement ends, onward⟩

/-- After the body of a condition the statement may be finished. -/
theorem Stage.finishes_conditionClosed (chain : IfChain) :
    Stage.Finishes ⟨.conditionClosed chain, blocks⟩ blocks (chain.toStmt .nothing) := by
  intro token next ends onward
  refine ⟨by simp [Mode.admits, ends], Token.rangeError?_of_endsStatement ends, ?_⟩
  -- Of the tokens that may follow, only `ELSE` goes on with the condition.
  cases token with
  | separator | rightBrace => exact onward
  | keyword word =>
    cases word with
    | ends | cases | defaults => exact onward
    | _ => cases ends
  | _ => cases ends

/-- An expression that is the last part of a statement finishes it. -/
theorem Stage.Completes.finishes {purpose : Purpose} {expr : Expr} {stmt : Stmt}
    (completes : stage.Completes purpose blocks expr) (last : purpose.toStmt? expr = some stmt) :
    stage.Finishes blocks stmt := by
  intro token next ends onward
  refine completes.takes_end ends ?_
  -- Only a parenthesis, a comma and a colon have a meaning of their own after an expression.
  have ended : endExpression purpose expr blocks token =
      (purpose.toStmt? expr).bind fun stmt => endStatement blocks stmt token := by
    cases token with
    | rightParen | comma | colon => cases ends
    | _ => rfl
  rw [ended, last]
  exact onward

/-- A declared name finishes the declaration, or goes on to the next name. -/
theorem Declared.path {declarator : Declarator} (declared : Declared declarator tokens)
    (type : VarType) (before : List Declarator) :
    ∃ stage, Stage.Path ⟨.typed type before, blocks⟩ tokens stage ∧
      stage.Finishes blocks (.declare (.known type) (declarator :: before).reverse) ∧
      stage.Takes .comma ⟨.typed type (declarator :: before), blocks⟩ := by
  cases declared with
  | @bare spelling identifier =>
    refine ⟨_, .single ⟨rfl, rfl, rfl⟩, ?_, ⟨rfl, rfl, rfl⟩⟩
    -- Without an initial value, an equals sign or a comma could follow, and neither ends a
    -- statement.
    intro token next ends onward
    refine ⟨by simp [Mode.admits, ends], Token.rangeError?_of_endsStatement ends, ?_⟩
    cases token with
    | equals | comma => cases ends
    | _ => exact onward
  | @initial spelling value tokens identifier written =>
    -- The initial value is read to where it may end, and a comma may follow there.
    obtain ⟨stage, path, completes⟩ :=
      written.path_complete (.initial type before (String.ofList spelling)) blocks
    exact ⟨stage, .cons ⟨rfl, rfl, rfl⟩ (.cons ⟨rfl, rfl, rfl⟩ path), completes.finishes rfl,
      completes.takes_mark (.inl rfl) (by simp) rfl⟩

/-- The names of a declaration are read one after the other. -/
theorem Listed.declared_path {declarators : List Declarator}
    (listed : Listed Declared declarators tokens) (type : VarType) (before : List Declarator) :
    ∃ stage, Stage.Path ⟨.typed type before, blocks⟩ tokens stage ∧
      stage.Finishes blocks (.declare (.known type) (before.reverse ++ declarators)) := by
  -- The induction is on the list, with the names before it as they have been read.
  induction listed generalizing before with
  | last one =>
    obtain ⟨stage, path, finishes, -⟩ := one.path type before
    exact ⟨stage, path, by simpa using finishes⟩
  | @more declarator rest tokens after one others ih =>
    obtain ⟨middle, path, -, comma⟩ := one.path type before
    -- The comma leads to where the next name is read in the same way.
    obtain ⟨stage, path', finishes⟩ := ih (declarator :: before)
    exact ⟨stage, path.append (.cons comma path'), by simpa using finishes⟩

/-- After a scanned name the statement may be finished. -/
theorem Stage.finishes_scanned (names : List String) :
    Stage.Finishes ⟨.scanned names, blocks⟩ blocks (.scan (names.reverse.map .ofName)) := by
  intro token next ends onward
  refine ⟨by simp [Mode.admits, ends], Token.rangeError?_of_endsStatement ends, ?_⟩
  -- Only a comma would go on with the names.
  cases token with
  | comma => cases ends
  | _ => exact onward

/-- The names that are scanned are read one after the other. -/
theorem Listed.scanned_path {names : List Target} (listed : Listed Named names tokens)
    (before : List String) :
    ∃ stage, Stage.Path ⟨.scanning before, blocks⟩ tokens stage ∧
      stage.Finishes blocks (.scan (before.reverse.map .ofName ++ names)) := by
  induction listed generalizing before with
  | last one =>
    obtain @⟨spelling, identifier⟩ := one
    -- The last name leads to where the statement may be finished.
    have finishes := @Stage.finishes_scanned blocks (String.ofList spelling :: before)
    exact ⟨_, .single ⟨rfl, rfl, rfl⟩, by simpa using finishes⟩
  | more one others ih =>
    obtain @⟨spelling, identifier⟩ := one
    obtain ⟨stage, path, finishes⟩ := ih (String.ofList spelling :: before)
    exact ⟨stage, .cons ⟨rfl, rfl, rfl⟩ (.cons ⟨rfl, rfl, rfl⟩ path), by simpa using finishes⟩

/-- The names that are assigned are read one after the other, from where each of them may stand. -/
theorem Assigned.path {targets : List Target} (assigned : Assigned targets tokens)
    {before : List String}
    (enters : ∀ spelling, stage.Path [.name spelling, .equals]
      ⟨.operand (.assign (String.ofList spelling :: before)) [], blocks⟩) :
    ∃ names, stage.Path tokens ⟨.operand (.assign names) [], blocks⟩ ∧
      names.reverse.map Target.ofName = before.reverse.map Target.ofName ++ targets := by
  -- The induction carries the stage from which each name is read.
  induction assigned generalizing stage before with
  | last one =>
    obtain @⟨spelling, identifier⟩ := one
    exact ⟨_, enters spelling, by simp⟩
  | more one others ih =>
    obtain @⟨spelling, identifier⟩ := one
    -- Every further name might also be the start of the value.
    have again : ∀ other, Stage.Path
        ⟨.operand (.assign (String.ofList spelling :: before)) [], blocks⟩ [.name other, .equals]
        ⟨.operand (.assign (String.ofList other :: String.ofList spelling :: before)) [], blocks⟩ :=
      fun other => .cons ⟨rfl, rfl, rfl⟩ (.single ⟨rfl, rfl, rfl⟩)
    obtain ⟨names, path, same⟩ := ih again
    exact ⟨names, (enters spelling).append path, by simpa using same⟩

/-- A condition or subject leads to the body that must follow. -/
theorem Tested.path {test : Expr} (tested : Tested test tokens) {purpose : Purpose}
    {construct : Construct} (follows : purpose.toConstruct? test = some construct) :
    Stage.Path ⟨.condition purpose, blocks⟩ tokens ⟨.body construct false, blocks⟩ := by
  obtain ⟨written⟩ := tested
  obtain ⟨stage, path, completes⟩ := written.path_complete purpose blocks
  -- The value of an assignment is closed by no parenthesis.
  have other : ∀ targets, purpose ≠ .assign targets := by
    rintro targets rfl
    cases follows
  have closes : stage.Takes .rightParen ⟨.body construct false, blocks⟩ := by
    -- The closing parenthesis makes a construct of the expression.
    refine completes.takes_mark (.inr (.inr rfl)) other ?_
    rw [endExpression, follows]
    rfl
  exact .cons ⟨rfl, rfl, rfl⟩ (path.append (.single closes))

end Simple

section Bodies

variable {blocks : List OpenBlock} {stage : Stage}

/-- The stages before the body of a construct, perhaps after a separator. -/
inductive Stage.Awaits (construct : Construct) (blocks : List OpenBlock) : Bool → Stage → Prop where
  | body (broken : Bool) : Awaits construct blocks broken ⟨.body construct broken, blocks⟩
  | elses {chain : IfChain} (broken : Bool) (same : construct = .elses chain) :
    Awaits construct blocks broken ⟨.elseBody chain broken, blocks⟩

/-- Where the reading stands after what opens a body. -/
def Enclosure.entered (enclosure : Enclosure) (construct : Construct) (blocks : List OpenBlock) :
    Option Stage :=
  match enclosure with
  | .words => some (openBody construct false blocks)
  | .braces false => some (openBody construct true blocks)
  | .braces true => (openBody construct true blocks).step .separator

/-- Before a body, a separator may stand. -/
theorem Stage.Awaits.path_breaks {construct : Construct}
    (awaits : stage.Awaits construct blocks false) (broken : Bool) :
    -- A body may stand without a separator before it, and then nothing is read.
    ∃ next, stage.Path (breaks broken) next ∧ next.Awaits construct blocks broken := by
  cases broken with
  | false => exact ⟨stage, .nil stage, awaits⟩
  | true =>
    -- After `ELSE`, the stage before the body is another one, but a separator does the same there.
    cases awaits with
    | body => exact ⟨_, .single ⟨rfl, rfl, rfl⟩, .body true⟩
    | elses _ same => exact ⟨_, .single ⟨rfl, rfl, rfl⟩, .elses true same⟩

/-- The word after `BEGIN` is that of the construct. -/
theorem Construct.takes_word (construct : Construct) :
    Stage.Takes ⟨.bodyWord construct, blocks⟩ (.keyword construct.word)
      ⟨.bodyBreak construct, blocks⟩ :=
  -- The stage knows the word that it expects, so that only that word fits.
  ⟨by simp [Mode.admits, Token.tokenClass], rfl, if_pos rfl⟩

/-- A separator may follow the brace that opens a body. -/
theorem admits_separator_openBody (construct : Construct) :
    (openBody construct true blocks).mode.admits .separator = true := by
  cases construct <;> rfl

/-- A body is opened, perhaps after a separator. -/
theorem Stage.Awaits.path {construct : Construct} (awaits : stage.Awaits construct blocks false)
    (enclosure : Enclosure) (broken : Bool) {next : Stage}
    (entered : enclosure.entered construct blocks = some next) :
    stage.Path (breaks broken ++ enclosure.opening construct.word) next := by
  obtain ⟨middle, path, before⟩ := awaits.path_breaks broken
  refine path.append ?_
  -- Both ways to open a body are open at each of the two stages.
  have begins : middle.Takes (.keyword .begins) ⟨.bodyWord construct, blocks⟩ := by
    cases before with
    | body => exact ⟨rfl, rfl, rfl⟩
    | elses _ same => exact same ▸ ⟨rfl, rfl, rfl⟩
  have opens : middle.Takes .leftBrace (openBody construct true blocks) := by
    cases before with
    | body => exact ⟨rfl, rfl, rfl⟩
    | elses _ same => exact same ▸ ⟨rfl, rfl, rfl⟩
  cases enclosure with
  | words =>
    obtain rfl := Option.some.inj entered
    exact .cons begins (.cons construct.takes_word (.single ⟨rfl, rfl, rfl⟩))
  -- In braces, the separator is one more step after the opening one.
  | braces inside =>
    cases inside with
    | false =>
      obtain rfl := Option.some.inj entered
      exact .single opens
    | true =>
      exact .cons opens (.single ⟨admits_separator_openBody construct, rfl, entered⟩)

/-- The place where the statements of a body start. -/
def Enclosure.place : Enclosure → Place
  | .words => .blockStart
  | .braces false => .braceStart
  | .braces true => .braceBroken

/-- What closes a body leads to where the reading stands after it. -/
theorem Enclosure.path_closing (enclosure : Enclosure) {block : OpenBlock} {word : Keyword}
    (braced : block.braced = enclosure.braced) (named : block.word = word)
    (closes : stage.Closes enclosure.place (block :: blocks)) :
    stage.Path (enclosure.closing word) ⟨block.after, blocks⟩ := by
  cases enclosure with
  | words =>
    -- The word that ends a list is followed by that of the construct.
    have ends : stage.Takes (.keyword .ends) ⟨.closing block.word block.after, blocks⟩ :=
      closes _ _ rfl (by decide) (if_neg (by simp [braced, Enclosure.braced]))
    refine .cons ends (.single ⟨?_, rfl, if_pos named.symm⟩)
    simp [Mode.admits, Token.tokenClass, named]
  | braces broken =>
    -- A brace closes the body in one step.
    have ends : stage.Takes .rightBrace ⟨block.after, blocks⟩ := by
      refine closes _ _ ?_ (by decide) (if_pos braced)
      cases broken <;> rfl
    exact .single ends

/-- Tokens are read as some statements, in every list of statements. -/
def ReadsAll (body : List Stmt) (tokens : List Token) : Prop :=
  ∀ (place : Place) (block : OpenBlock) (outer : List OpenBlock),
    ∃ stage, Stage.Path ⟨.statement place, block :: outer⟩ tokens stage ∧
      stage.Closes place ({ block with done := body.reverse ++ block.done } :: outer)

/-- A body in its enclosure is read as the block of its construct. -/
theorem Stage.Awaits.path_around {construct : Construct} {owner : Owner} {body : List Stmt}
    {inner : List Token} (awaits : stage.Awaits construct blocks false)
    (opens : ∀ braced, openBody construct braced blocks =
      ⟨.statement (if braced then .braceStart else .blockStart), ⟨owner, braced, []⟩ :: blocks⟩)
    (named : ∀ braced done, (OpenBlock.mk owner braced done).word = construct.word)
    (enclosure : Enclosure) (broken : Bool) (reads : ReadsAll body inner) :
    stage.Path (enclosure.around construct.word broken inner)
      ⟨(OpenBlock.mk owner enclosure.braced body.reverse).after, blocks⟩ := by
  -- Whatever encloses it, the block is open and empty once the body has been opened.
  have entered : enclosure.entered construct blocks =
      some ⟨.statement enclosure.place, ⟨owner, enclosure.braced, []⟩ :: blocks⟩ := by
    cases enclosure with
    | words => exact congrArg some (opens false)
    | braces inside =>
      cases inside with
      | false => exact congrArg some (opens true)
      | true =>
        rw [Enclosure.entered, opens]
        rfl
  -- The block starts out empty, and holds the body when it closes.
  obtain ⟨last, path, closes⟩ := reads enclosure.place ⟨owner, enclosure.braced, []⟩ blocks
  rw [List.append_nil] at closes
  -- What opens the body, the body, and what closes it follow each other.
  rw [Enclosure.around, ← List.append_assoc]
  exact (awaits.path enclosure broken entered).append
    (path.append (enclosure.path_closing rfl (named _ _) closes))

/-- A stage where a switch may end, as the given statement. -/
def Stage.EndsSwitch (stage : Stage) (braced : Bool) (blocks : List OpenBlock) (stmt : Stmt) :
    Prop :=
  if braced then stage.Takes .rightBrace ⟨.finished stmt false, blocks⟩
  else stage.Takes (.keyword .ends) ⟨.closing .switches (.finished stmt false), blocks⟩

/-- A stage where a case of a switch may follow, or the end of the switch. -/
structure Stage.AtCase (stage : Stage) (switch : OpenSwitch) (blocks : List OpenBlock) : Prop where
  cases : stage.Takes (.keyword .cases) ⟨.operand (.caseValue switch) [], blocks⟩
  default : stage.Takes (.keyword .defaults) ⟨.defaultColon switch, blocks⟩
  ends : stage.EndsSwitch switch.braced blocks (switch.toStmt none)

/-- Before the first case of a switch, one may follow. -/
theorem Stage.atCase_cases (switch : OpenSwitch) (mayBreak : Bool) :
    Stage.AtCase ⟨.cases switch mayBreak, blocks⟩ switch blocks := by
  -- Neither a case nor a default depends on what has been read of the switch.
  refine ⟨⟨rfl, rfl, rfl⟩, ⟨rfl, rfl, rfl⟩, ?_⟩
  unfold Stage.EndsSwitch
  split
  · -- In braces a right brace ends the switch, and otherwise the word for the end does.
    rename_i braced
    exact ⟨by simp [Mode.admits, Token.tokenClass, braced], rfl, if_pos braced⟩
  · rename_i braced
    exact ⟨by simp [Mode.admits, Token.tokenClass, braced], rfl, if_neg braced⟩

/-- Where the statements of a case or default may end, the switch may. -/
theorem Stage.Closes.endsSwitch {place : Place} {block : OpenBlock} {stmt : Stmt}
    (closes : stage.Closes place (block :: blocks))
    (ends : place.endsWith (.keyword .ends) = true ∧ place.endsWith .rightBrace = true)
    (named : block.word = .switches) (after : block.after = .finished stmt false) :
    stage.EndsSwitch block.braced blocks stmt := by
  -- The way a switch ends is that of the block that the case opened.
  unfold Stage.EndsSwitch
  split
  · rename_i braced
    exact after ▸ closes _ _ ends.2 (by decide) (if_pos braced)
  · rename_i braced
    exact after ▸ named ▸ closes _ _ ends.1 (by decide) (if_neg braced)

/-- Where the statements of a case may end, another case may follow. -/
theorem Stage.Closes.atCase {place : Place} {switch : OpenSwitch} {value : Expr}
    {body : List Stmt} (after : place = .caseStart ∨ place = .between)
    (closes : stage.Closes place (⟨.caseOf switch value, switch.braced, body.reverse⟩ :: blocks)) :
    stage.AtCase (switch.addCase value body) blocks := by
  have whole : OpenBlock.body ⟨.caseOf switch value, switch.braced, body.reverse⟩ = body :=
    List.reverse_reverse body
  refine ⟨?_, ?_, ?_⟩
  · -- A further case ends the statements of the one before it, and so does a default.
    refine closes _ _ (by rcases after with rfl | rfl <;> rfl) (by decide) ?_
    simp only [endList, whole]
  · refine closes _ _ (by rcases after with rfl | rfl <;> rfl) (by decide) ?_
    simp only [endList, whole]
  · refine closes.endsSwitch (by rcases after with rfl | rfl <;> exact ⟨rfl, rfl⟩) rfl ?_
    simp only [OpenBlock.after, whole]

variable {body : List Stmt} {inner : List Token}

/-- The body of a condition leads to where `ELSE` may follow. -/
theorem ReadsAll.path_ifs (reads : ReadsAll body inner) (before : Option IfChain) (test : Expr)
    (enclosure : Enclosure) (broken : Bool) (blocks : List OpenBlock) :
    Stage.Path ⟨.body (.ifs before test) false, blocks⟩ (enclosure.around .ifs broken inner)
      ⟨.conditionClosed (.extend test body before), blocks⟩ := by
  have awaits : Stage.Awaits (.ifs before test) blocks false
      ⟨.body (.ifs before test) false, blocks⟩ := .body false
  -- The separator and the enclosure make no difference to what is read.
  have path := awaits.path_around (fun _ => rfl) (fun _ _ => rfl) enclosure broken reads
  simpa only [OpenBlock.after, OpenBlock.body, List.reverse_reverse, Construct.word] using path

/-- The body of an `ELSE` finishes the statement. -/
theorem ReadsAll.path_elses (reads : ReadsAll body inner) (chain : IfChain) (enclosure : Enclosure)
    (broken : Bool) (blocks : List OpenBlock) :
    Stage.Path ⟨.elseBody chain false, blocks⟩ (enclosure.around .ifs broken inner)
      ⟨.finished (chain.toStmt (.block body)) true, blocks⟩ := by
  have awaits : Stage.Awaits (.elses chain) blocks false ⟨.elseBody chain false, blocks⟩ :=
    .elses false rfl
  -- The block of an `ELSE` is read like any other, and finishes the whole chain.
  have path := awaits.path_around (fun _ => rfl) (fun _ _ => rfl) enclosure broken reads
  simpa only [OpenBlock.after, OpenBlock.body, List.reverse_reverse, Construct.word] using path

/-- The body of a loop finishes the statement. -/
theorem ReadsAll.path_whiles (reads : ReadsAll body inner) (test : Expr) (enclosure : Enclosure)
    (broken : Bool) (blocks : List OpenBlock) :
    Stage.Path ⟨.body (.whiles test) false, blocks⟩ (enclosure.around .whiles broken inner)
      ⟨.finished (.repeatWhile test body) enclosure.braced, blocks⟩ := by
  have awaits : Stage.Awaits (.whiles test) blocks false ⟨.body (.whiles test) false, blocks⟩ :=
    .body false
  -- A loop is finished by its body.
  have path := awaits.path_around (fun _ => rfl) (fun _ _ => rfl) enclosure broken reads
  simpa only [OpenBlock.after, OpenBlock.body, List.reverse_reverse, Construct.word] using path

/-- What closes the body of a switch finishes the statement. -/
theorem Stage.EndsSwitch.path {enclosure : Enclosure} {stmt : Stmt}
    (ends : stage.EndsSwitch enclosure.braced blocks stmt) :
    stage.Path (enclosure.closing .switches) ⟨.finished stmt false, blocks⟩ := by
  cases enclosure with
  -- The word for the end is followed by the one for switches.
  | words => exact .cons ends (.single ⟨rfl, rfl, rfl⟩)
  | braces broken => exact .single ends

/-- What opens the body of a switch leads to before its first case. -/
theorem Enclosure.entered_switches (enclosure : Enclosure) (subject : Expr)
    (blocks : List OpenBlock) : ∃ mayBreak, enclosure.entered (.switches subject) blocks =
      some ⟨.cases ⟨subject, enclosure.braced, []⟩ mayBreak, blocks⟩ := by
  -- Only after a brace may a separator be left to come.
  cases enclosure with
  | words => exact ⟨false, rfl⟩
  | braces broken => cases broken <;> exact ⟨_, rfl⟩

/-- A separator may follow the colon of a case. -/
theorem path_caseStart (broken : Bool) :
    ∃ place, (place = .caseStart ∨ place = .between) ∧
      Stage.Path ⟨.statement .caseStart, blocks⟩ (breaks broken) ⟨.statement place, blocks⟩ := by
  cases broken with
  -- After the separator the place is one between statements.
  | false => exact ⟨.caseStart, .inl rfl, .nil _⟩
  | true => exact ⟨.between, .inr rfl, .single ⟨rfl, rfl, rfl⟩⟩

/-- A separator may follow the colon of a default. -/
theorem path_defaultStart (broken : Bool) :
    ∃ place, (place = .defaultStart ∨ place = .defaultBroken) ∧
      Stage.Path ⟨.statement .defaultStart, blocks⟩ (breaks broken) ⟨.statement place, blocks⟩ := by
  cases broken with
  -- A default has two places of its own, since nothing may come after it but the end.
  | false => exact ⟨.defaultStart, .inl rfl, .nil _⟩
  | true => exact ⟨.defaultBroken, .inr rfl, .single ⟨rfl, rfl, rfl⟩⟩

end Bodies

mutual

/-- An arrangement of a statement is read as the statement. -/
theorem Arranged.path {stmt : Stmt} {tokens : List Token} (arranged : Arranged stmt tokens)
    (place : Place) (blocks : List OpenBlock) :
    ∃ stage, Stage.Path ⟨.statement place, blocks⟩ tokens stage ∧ stage.Finishes blocks stmt := by
  match arranged with
  | .declare listed =>
    -- The names after the type are read as a list of declared ones.
    obtain ⟨stage, path, finishes⟩ := listed.declared_path _ []
    exact ⟨stage, .cons ⟨rfl, rfl, rfl⟩ path, finishes⟩
  | .assign assigned written =>
    -- The first name is read at the start of a statement, unlike the further ones.
    have enters : ∀ spelling, Stage.Path ⟨.statement place, blocks⟩ [.name spelling, .equals]
        ⟨.operand (.assign [String.ofList spelling]) [], blocks⟩ :=
      fun spelling => .cons ⟨rfl, rfl, rfl⟩ (.single ⟨rfl, rfl, rfl⟩)
    obtain ⟨names, path, same⟩ := assigned.path enters
    obtain ⟨stage, path', completes⟩ := written.path_complete (.assign names) blocks
    refine ⟨stage, path.append path', completes.finishes ?_⟩
    simpa [Purpose.toStmt?] using same
  | @Arranged.ifElse test body _ _ _ _ tested enclosure broken block other =>
    -- The body of the condition is read, and then whatever is done otherwise.
    have within := block.reads.path_ifs none test enclosure broken blocks
    obtain ⟨stage, path, finishes⟩ := other.path (.extend test body none) blocks
    exact ⟨stage, .cons ⟨rfl, rfl, rfl⟩ ((tested.path rfl).append (within.append path)), finishes⟩
  | @Arranged.repeatWhile test _ _ _ tested enclosure broken block =>
    have within := block.reads.path_whiles test enclosure broken blocks
    exact ⟨_, .cons ⟨rfl, rfl, rfl⟩ ((tested.path rfl).append within), Stage.finishes_finished _ _⟩
  | @Arranged.switch subject _ _ _ _ tested enclosure broken clauses =>
    -- A switch opens no block of its own: its cases do.
    have awaits : Stage.Awaits (.switches subject) blocks false
        ⟨.body (.switches subject) false, blocks⟩ := .body false
    obtain ⟨mayBreak, entered⟩ := enclosure.entered_switches subject blocks
    obtain ⟨stage, path, ends⟩ := clauses.path (Stage.atCase_cases _ mayBreak)
    have within := (awaits.path enclosure broken entered).append (path.append ends.path)
    rw [List.append_assoc] at within
    exact ⟨_, .cons ⟨rfl, rfl, rfl⟩ ((tested.path rfl).append within), Stage.finishes_finished _ _⟩
  | .breakOut => exact ⟨_, .single ⟨rfl, rfl, rfl⟩, Stage.finishes_finished .breakOut false⟩
  | .display written =>
    -- What is displayed is an expression, which ends the statement.
    obtain ⟨stage, path, completes⟩ := written.path_complete .display blocks
    exact ⟨stage, .cons ⟨rfl, rfl, rfl⟩ (.cons ⟨rfl, rfl, rfl⟩ path), completes.finishes rfl⟩
  | .scan listed =>
    obtain ⟨stage, path, finishes⟩ := listed.scanned_path []
    exact ⟨stage, .cons ⟨rfl, rfl, rfl⟩ (.cons ⟨rfl, rfl, rfl⟩ path), finishes⟩

/-- An arrangement of some statements is read as these. -/
theorem ArrangedAll.reads {body : List Stmt} {tokens : List Token}
    (arranged : ArrangedAll body tokens) : ReadsAll body tokens := by
  intro place block outer
  match arranged with
  -- With no statement at all, the list may end at once.
  | .none => exact ⟨_, .nil _, Stage.closes_statement place _⟩
  | .last one =>
    obtain ⟨stage, path, finishes⟩ := one.path place (block :: outer)
    refine ⟨stage, path, ?_⟩
    -- The last statement is not followed by a separator: what ends the list ends it too.
    intro token next ends _ onward
    exact finishes token next (Place.endsStatement_of_endsWith ends) onward
  | .more one others =>
    -- The separator puts the statement into the block, and the others are read from there.
    obtain ⟨middle, path, finishes⟩ := one.path place (block :: outer)
    have separates := finishes .separator _ rfl rfl
    obtain ⟨stage, path', closes⟩ := others.reads .between _ outer
    refine ⟨stage, path.append (.cons separates path'), ?_⟩
    intro token next ends other onward
    exact closes token next (Place.between_endsWith ends other) other (by simpa using onward)

/-- An arrangement of what is done otherwise is read after the conditions before it. -/
theorem ArrangedOtherwise.path {otherwise : Otherwise} {tokens : List Token}
    (arranged : ArrangedOtherwise otherwise tokens) (chain : IfChain) (blocks : List OpenBlock) :
    ∃ stage, Stage.Path ⟨.conditionClosed chain, blocks⟩ tokens stage ∧
      stage.Finishes blocks (chain.toStmt otherwise) := by
  match arranged with
  | .nothing => exact ⟨_, .nil _, Stage.finishes_conditionClosed chain⟩
  | .block enclosure broken block =>
    -- After a final `ELSE` the condition cannot go on.
    have within := block.reads.path_elses chain enclosure broken blocks
    exact ⟨_, .cons ⟨rfl, rfl, rfl⟩ within, Stage.finishes_finished _ true⟩
  | @ArrangedOtherwise.elseIf test body _ _ _ _ apart tested enclosure broken block other =>
    -- A separator may stand between `ELSE` and the next condition.
    have before : Stage.Path ⟨.elseBody chain false, blocks⟩ (breaks apart)
        ⟨.elseBody chain apart, blocks⟩ := by
      cases apart with
      | false => exact .nil _
      | true => exact .single ⟨rfl, rfl, rfl⟩
    have within := block.reads.path_ifs (some chain) test enclosure broken blocks
    obtain ⟨stage, path, finishes⟩ := other.path (.extend test body (some chain)) blocks
    have condition : Stage.Path ⟨.condition (.ifTest (some chain)), blocks⟩ _
        ⟨.body (.ifs (some chain) test) false, blocks⟩ := tested.path rfl
    refine ⟨stage, .cons ⟨rfl, rfl, rfl⟩ (before.append (.cons ⟨rfl, rfl, rfl⟩ ?_)), finishes⟩
    exact condition.append (within.append path)

/-- An arrangement of cases is read as the cases of the open switch. -/
theorem ArrangedCases.path {cases : List Case} {default : Option (List Stmt)} {tokens : List Token}
    (arranged : ArrangedCases cases default tokens) {stage : Stage} {switch : OpenSwitch}
    {blocks : List OpenBlock} (atCase : stage.AtCase switch blocks) :
    ∃ next, stage.Path tokens next ∧ next.EndsSwitch switch.braced blocks
      (.switch switch.subject (switch.cases.reverse ++ cases) default) := by
  match arranged with
  -- With nothing more to come, the switch may end where it stands.
  | .none =>
    rw [List.append_nil]
    exact ⟨stage, .nil stage, atCase.ends⟩
  | @ArrangedCases.default body _ broken block =>
    -- The default opens a block, in which its statements are read.
    obtain ⟨place, started, before⟩ := @path_defaultStart
      (⟨.defaultOf switch, switch.braced, []⟩ :: blocks) broken
    obtain ⟨next, path, closes⟩ := block.reads place ⟨.defaultOf switch, switch.braced, []⟩ blocks
    refine ⟨next, .cons atCase.default (.cons ⟨rfl, rfl, rfl⟩ (before.append path)), ?_⟩
    have ends : place.endsWith (.keyword .ends) = true ∧ place.endsWith .rightBrace = true := by
      rcases started with rfl | rfl <;> exact ⟨rfl, rfl⟩
    refine closes.endsSwitch ends rfl ?_
    simp [OpenBlock.after, OpenBlock.body, OpenSwitch.toStmt]
  | @ArrangedCases.more value body cases default tokens inner after written broken block others =>
    -- The value, its colon, the statements, and then whatever else the switch has.
    obtain ⟨stage', path, completes⟩ := written.path_complete (.caseValue switch) blocks
    have colon := completes.takes_mark (.inr (.inl rfl)) (by simp) rfl
    obtain ⟨place, started, before⟩ := @path_caseStart
      (⟨.caseOf switch value, switch.braced, []⟩ :: blocks) broken
    obtain ⟨middle, within, closes⟩ :=
      block.reads place ⟨.caseOf switch value, switch.braced, []⟩ blocks
    rw [List.append_nil] at closes
    obtain ⟨next, path', ends⟩ := others.path (closes.atCase started)
    refine ⟨next, .cons atCase.cases (path.append (.cons colon ?_)), ?_⟩
    · exact before.append (within.append path')
    · simpa [OpenSwitch.addCase] using ends

end

/-- Statements with a separator after the last of them lead from the first line of a program to its
last. -/
theorem ArrangedAll.program_path {body : List Stmt} {tokens : List Token}
    (arranged : ArrangedAll body (tokens ++ [.separator])) :
    Stage.opened.Path (tokens ++ [.separator, .keyword .ends, .keyword .code])
      ⟨.ended body false, []⟩ := by
  -- The program is a body between its words, with nothing around it.
  obtain ⟨stage, path, closes⟩ := arranged.reads .blockStart ⟨.program, false, []⟩ []
  have closed : stage.Path [.keyword .ends, .keyword .code] _ :=
    Enclosure.words.path_closing rfl rfl closes
  have whole := path.append closed
  simp only [OpenBlock.after, OpenBlock.body, List.append_nil, List.reverse_reverse] at whole
  rwa [List.append_assoc] at whole

end Pseudocode
