import Pseudocode.Proofs.Source.Reading
import Pseudocode.Proofs.Syntax.Parts

/-! Programs that source text can spell: only names call variables, only types declare them, and
every operator is known. Reading a program keeps to such parts at every token. -/

namespace Pseudocode

/-- Every binary operator that a token stands for is known. -/
theorem Token.binaryOp?_known {token : Token} {op : BinaryOp} (stands : token.binaryOp? = some op) :
    op.Known := by
  intro symbol same
  subst same
  -- No token stands for an operator that is not known, so that every case is impossible.
  unfold binaryOp? at stands
  split at stands <;> simp at stands

/-- Every unary operator that a token stands for is known. -/
theorem Token.unaryOp?_known {token : Token} {op : UnaryOp} (stands : token.unaryOp? = some op) :
    op.Known := by
  intro symbol same
  subst same
  -- The same is so of the three that take one operand.
  unfold unaryOp? at stands
  split at stands <;> simp at stands

/-- Something that waits for an operand has only parts from source text. -/
def Pending.Sourced : Pending → Prop
  -- Opened parentheses hold back what waits before them, and are no part of it.
  | .binary op left => op.Known ∧ left.Sourced
  | .unary op => op.Known
  | .paren => True

/-- Conditions with their bodies have only parts from source text. -/
def IfChain.Sourced (chain : IfChain) : Prop :=
  (chain.first.1.Sourced ∧ blockUses .sourced chain.first.2) ∧
    ∀ clause ∈ chain.more, clause.1.Sourced ∧ blockUses .sourced clause.2

/-- An open switch has only parts from source text. -/
def OpenSwitch.Sourced (switch : OpenSwitch) : Prop :=
  switch.subject.Sourced ∧ casesUse .sourced switch.cases

/-- A construct whose body must follow has only parts from source text. -/
def Construct.Sourced : Construct → Prop
  | .ifs before test => (∀ chain ∈ before, chain.Sourced) ∧ test.Sourced
  | .elses chain => chain.Sourced
  | .whiles test => test.Sourced
  | .switches subject => subject.Sourced

/-- What a list of statements belongs to has only parts from source text. -/
def Owner.Sourced : Owner → Prop
  | .program => True
  | .ifs before test => (∀ chain ∈ before, chain.Sourced) ∧ test.Sourced
  | .elses chain => chain.Sourced
  | .whiles test => test.Sourced
  | .caseOf switch value => switch.Sourced ∧ value.Sourced
  | .defaultOf switch => switch.Sourced

/-- An open list of statements has only parts from source text. -/
def OpenBlock.Sourced (block : OpenBlock) : Prop :=
  block.owner.Sourced ∧ blockUses .sourced block.done

/-- What an expression is read for has only parts from source text. -/
def Purpose.Sourced : Purpose → Prop
  | .initial _ before _ => ∀ declarator ∈ before, declarator.Uses .sourced
  | .ifTest before => ∀ chain ∈ before, chain.Sourced
  | .caseValue switch => switch.Sourced
  | .assign _ | .display | .whileTest | .subject => True

/-- The place of the reading has only parts from source text. -/
def Mode.Sourced : Mode → Prop
  | .typed _ before | .declared _ before _ => ∀ declarator ∈ before, declarator.Uses .sourced
  | .condition purpose => purpose.Sourced
  | .operand purpose pending => purpose.Sourced ∧ ∀ waiting ∈ pending, waiting.Sourced
  | .operator purpose pending left =>
    purpose.Sourced ∧ (∀ waiting ∈ pending, waiting.Sourced) ∧ left.Sourced
  | .body construct _ | .bodyWord construct | .bodyBreak construct => construct.Sourced
  | .cases switch _ | .defaultColon switch => switch.Sourced
  | .closing _ next => next.Sourced
  | .finished stmt _ => stmt.Uses .sourced
  | .conditionClosed chain | .elseBody chain _ => chain.Sourced
  | .ended stmts _ => blockUses .sourced stmts
  | .opening _ | .openingWord | .openingBreak | .statement _ | .target _ | .perhapsTarget _ _
  | .displayColon | .scanColon | .scanning _ | .scanned _ => True

/-- A stage of the reading has only parts from source text. -/
structure Stage.Sourced (stage : Stage) : Prop where
  /-- The place of the reading has. -/
  mode : stage.mode.Sourced
  /-- The open lists of statements have. -/
  blocks : ∀ block ∈ stage.blocks, block.Sourced

/-- If the reading goes on, it does so in a stage that has only parts from source text. -/
def GoesOnSourced (result : Option Stage) : Prop :=
  ∀ next, result = some next → next.Sourced

/-- A stage that is reached for certain. -/
theorem goesOnSourced_some {stage : Stage} : GoesOnSourced (some stage) ↔ stage.Sourced := by
  simp [GoesOnSourced]

/-- A reading that stops has no next stage. -/
theorem goesOnSourced_none : GoesOnSourced none := by
  simp [GoesOnSourced]

/-- The statements of a block are in the reverse order of their reading. -/
theorem blockUses_reverse {parts : Parts} {body : List Stmt} (uses : blockUses parts body) :
    blockUses parts body.reverse := by
  -- The condition is about each statement, and so it does not see their order.
  rw [blockUses_iff] at uses ⊢
  exact fun stmt member => uses stmt (List.mem_reverse.mp member)

/-- The cases of a switch are in the reverse order of their reading. -/
theorem casesUse_reverse {parts : Parts} {cases : List Case} (uses : casesUse parts cases) :
    casesUse parts cases.reverse := by
  -- The same is so of the cases.
  rw [casesUse_iff] at uses ⊢
  exact fun clause member => uses clause (List.mem_reverse.mp member)

/-- Giving an operand to waiting operators makes an expression of their parts. -/
theorem collapse_sourced (tier : Nat) {operand : Expr} {pending : List Pending}
    (given : operand.Sourced) (waits : ∀ waiting ∈ pending, waiting.Sourced) :
    (collapse tier operand pending).1.Sourced ∧
      ∀ waiting ∈ (collapse tier operand pending).2, waiting.Sourced := by
  -- Each operator that is satisfied becomes the operand of the one before it.
  induction pending generalizing operand with
  | nil => exact ⟨given, waits⟩
  | cons first rest ih =>
    -- What is true of all that waits is true of what waits further back.
    have later : ∀ waiting ∈ rest, waiting.Sourced :=
      fun waiting member => waits waiting (by simp [member])
    have here : first.Sourced := waits first (by simp)
    cases first with
    | binary op left =>
      simp only [collapse]
      split
      · exact ih ⟨here.1, here.2, given⟩ later
      · exact ⟨given, waits⟩
    | unary op =>
      simp only [collapse]
      split
      · exact ih ⟨here, given⟩ later
      · exact ⟨given, waits⟩
    | paren => exact ⟨given, waits⟩

/-- Conditions make a statement with what is left to be done otherwise. -/
theorem IfChain.toStmt_sourced {chain : IfChain} {otherwise : Otherwise}
    (conditions : chain.Sourced)
    (left : otherwise.Uses .sourced) : (chain.toStmt otherwise).Uses .sourced := by
  -- The latest condition is the innermost one.
  have folded : ∀ (more : List (Expr × List Stmt)) (after : Otherwise), after.Uses .sourced →
      (∀ clause ∈ more, clause.1.Sourced ∧ blockUses .sourced clause.2) →
      (more.foldl (fun after clause => Otherwise.elseIf clause.1 clause.2 after) after).Uses
        .sourced := by
    intro more
    -- The induction is on the conditions, with anything allowed as what follows them.
    induction more with
    | nil => exact fun _ uses _ => uses
    | cons clause rest ih =>
      intro after uses clauses
      have here := clauses clause (by simp)
      exact ih _ ⟨here.1, here.2, uses⟩ fun other member => clauses other (by simp [member])
  exact ⟨conditions.1.1, conditions.1.2, folded chain.more otherwise left conditions.2⟩

/-- A chain that a condition with its body is added to has only parts from source text. -/
theorem IfChain.extend_sourced {before : Option IfChain} {test : Expr} {body : List Stmt}
    (earlier : ∀ chain ∈ before, chain.Sourced) (here : test.Sourced)
    (uses : blockUses .sourced body) : (IfChain.extend test body before).Sourced := by
  -- The first condition of a statement starts the chain, and any other is put before it.
  cases before with
  | none => exact ⟨⟨here, uses⟩, by simp [extend]⟩
  | some chain =>
    obtain ⟨first, more⟩ := earlier chain rfl
    refine ⟨first, ?_⟩
    intro clause member
    rcases List.mem_cons.mp member with same | member
    · exact same ▸ ⟨here, uses⟩
    · exact more clause member

/-- A switch with one more case has only parts from source text. -/
theorem OpenSwitch.addCase_sourced {switch : OpenSwitch} {value : Expr} {body : List Stmt}
    (opened : switch.Sourced) (here : value.Sourced) (uses : blockUses .sourced body) :
    (switch.addCase value body).Sourced :=
  -- The new case is put in front, as cases are gathered in reverse.
  ⟨opened.1, ⟨here, uses⟩, opened.2⟩

/-- A switch without a default makes a statement. -/
theorem OpenSwitch.toStmt_none_sourced {switch : OpenSwitch} (opened : switch.Sourced) :
    (switch.toStmt none).Uses .sourced :=
  ⟨opened.1, casesUse_reverse opened.2⟩

/-- A switch with a default makes a statement. -/
theorem OpenSwitch.toStmt_some_sourced {switch : OpenSwitch} {body : List Stmt}
    (opened : switch.Sourced) (uses : blockUses .sourced body) :
    (switch.toStmt (some body)).Uses .sourced :=
  ⟨opened.1, casesUse_reverse opened.2, uses⟩

/-- The end of a list of statements leads to a place with parts from source text. -/
theorem OpenBlock.after_sourced {block : OpenBlock} (opened : block.Sourced) :
    block.after.Sourced := by
  obtain ⟨owned, uses⟩ := opened
  -- The statements have been gathered in reverse, too.
  have body : blockUses .sourced block.body := blockUses_reverse uses
  obtain ⟨owner, braced, done⟩ := block
  -- The owner tells what the list of statements is a part of.
  cases owner with
  | program => exact body
  | ifs before test => exact IfChain.extend_sourced owned.1 owned.2 body
  | elses chain => exact IfChain.toStmt_sourced owned body
  | whiles test => exact ⟨owned, body⟩
  | caseOf switch value =>
    have complete := OpenSwitch.addCase_sourced owned.1 owned.2 body
    exact OpenSwitch.toStmt_none_sourced complete
  | defaultOf switch => exact OpenSwitch.toStmt_some_sourced owned body

section Steps

variable {blocks : List OpenBlock} {token : Token}

/-- Ending or separating statements keeps to parts from source text. -/
theorem endList_sourced (opened : ∀ block ∈ blocks, block.Sourced) :
    GoesOnSourced (endList blocks token) := by
  -- Without an open list nothing can end.
  cases blocks with
  | nil => exact goesOnSourced_none
  | cons block outer =>
    have here : block.Sourced := opened block (by simp)
    have further : ∀ other ∈ outer, other.Sourced :=
      fun other member => opened other (by simp [member])
    have ended := OpenBlock.after_sourced here
    have body : blockUses .sourced block.body := blockUses_reverse here.2
    obtain ⟨owner, braced, done⟩ := block
    simp only [endList]
    split
    · -- A separator goes on within the list.
      exact goesOnSourced_some.mpr ⟨trivial, opened⟩
    · -- A brace ends a list that a brace has opened, and no other.
      split
      · exact goesOnSourced_some.mpr ⟨ended, further⟩
      · exact goesOnSourced_none
    · -- The word that closes a list ends one that a word has opened.
      split
      · exact goesOnSourced_none
      · exact goesOnSourced_some.mpr ⟨ended, further⟩
    -- The body of a case ends where the next case or the default starts.
    · split
      · have complete := OpenSwitch.addCase_sourced here.1.1 here.1.2 body
        exact goesOnSourced_some.mpr ⟨⟨complete, by simp⟩, further⟩
      · exact goesOnSourced_none
    · split
      · have complete := OpenSwitch.addCase_sourced here.1.1 here.1.2 body
        exact goesOnSourced_some.mpr ⟨complete, further⟩
      · exact goesOnSourced_none
    · exact goesOnSourced_none

/-- A complete statement is added to the innermost list. -/
theorem endStatement_sourced {stmt : Stmt} (opened : ∀ block ∈ blocks, block.Sourced)
    (uses : stmt.Uses .sourced) : GoesOnSourced (endStatement blocks stmt token) := by
  cases blocks with
  | nil => exact goesOnSourced_none
  | cons block outer =>
    simp only [endStatement]
    -- With the statement in its list, the token is what ends or separates statements.
    refine endList_sourced fun other member => ?_
    rcases List.mem_cons.mp member with same | member
    · subst same
      have here := opened block (by simp)
      -- The statement goes to the others of its list.
      exact ⟨here.1, uses, here.2⟩
    · exact opened other (by simp [member])

/-- Starting a statement keeps to parts from source text. -/
theorem startStatement_sourced (place : Place) (opened : ∀ block ∈ blocks, block.Sourced) :
    GoesOnSourced (startStatement place blocks token) := by
  unfold startStatement
  split
  case h_9 =>
    -- A separator goes on only where a list of statements has just been opened.
    split
    · exact goesOnSourced_some.mpr ⟨trivial, opened⟩
    · exact goesOnSourced_some.mpr ⟨trivial, opened⟩
    · exact goesOnSourced_some.mpr ⟨trivial, opened⟩
    · exact goesOnSourced_none
  case h_10 => exact endList_sourced opened
  all_goals
    -- Each kind of statement has its own first mode, which has no parts yet.
    refine goesOnSourced_some.mpr ⟨?_, opened⟩
    simp [Mode.Sourced, Purpose.Sourced, Stmt.Uses]

/-- Reading an operand keeps to parts from source text. -/
theorem readOperand_sourced {purpose : Purpose} {pending : List Pending}
    (opened : ∀ block ∈ blocks, block.Sourced) (aim : purpose.Sourced)
    (waits : ∀ waiting ∈ pending, waiting.Sourced) :
    GoesOnSourced (readOperand purpose pending blocks token) := by
  unfold readOperand
  split
  · -- A name after an assignment may be one more target, and else it is an operand.
    dsimp only
    split
    · exact goesOnSourced_some.mpr ⟨trivial, opened⟩
    · exact goesOnSourced_some.mpr ⟨⟨aim, waits, _, rfl⟩, opened⟩
  · exact goesOnSourced_some.mpr ⟨⟨aim, waits, trivial⟩, opened⟩
  · -- A parenthesis waits for the one that closes it.
    exact goesOnSourced_some.mpr ⟨⟨aim, by simpa [Pending.Sourced] using waits⟩, opened⟩
  · split
    · exact goesOnSourced_some.mpr ⟨⟨aim, waits, _, rfl⟩, opened⟩
    -- The token stands for an operator, and that waits for its operand.
    · rename_i op _ stands
      refine goesOnSourced_some.mpr ⟨⟨aim, ?_⟩, opened⟩
      intro waiting member
      rcases List.mem_cons.mp member with same | member
      · exact same ▸ Token.unaryOp?_known stands
      · exact waits waiting member
    · exact goesOnSourced_none

/-- The statement that a complete expression makes has only parts from source text. -/
theorem Purpose.toStmt?_sourced {purpose : Purpose} {expr : Expr} {stmt : Stmt}
    (aim : purpose.Sourced) (complete : expr.Sourced) (made : purpose.toStmt? expr = some stmt) :
    stmt.Uses .sourced := by
  -- Conditions, subjects and values of cases are no statements by themselves.
  cases purpose with
  | initial type before name =>
    obtain rfl := Option.some.inj made
    refine ⟨⟨type, rfl⟩, fun declarator member => ?_⟩
    rcases List.mem_cons.mp (List.mem_reverse.mp member) with same | member
    -- The expression is the initial value of the latest name.
    · exact same ▸ ⟨⟨name, rfl⟩, fun _ same => Option.some.inj same ▸ complete⟩
    · exact aim declarator member
  | assign targets =>
    obtain rfl := Option.some.inj made
    refine ⟨fun target member => ?_, complete⟩
    -- The targets are the names that have been read.
    obtain ⟨spelling, _, same⟩ := List.mem_map.mp member
    exact ⟨spelling, same.symm⟩
  | display =>
    obtain rfl := Option.some.inj made
    exact complete
  | ifTest | whileTest | subject | caseValue => cases made

/-- The construct that a complete condition leads to has only parts from source text. -/
theorem Purpose.toConstruct?_sourced {purpose : Purpose} {expr : Expr} {construct : Construct}
    (aim : purpose.Sourced) (complete : expr.Sourced)
    (made : purpose.toConstruct? expr = some construct) : construct.Sourced := by
  -- Only the conditions and the subject lead on to a body.
  cases purpose with
  | ifTest before => exact Option.some.inj made ▸ ⟨aim, complete⟩
  | whileTest => exact Option.some.inj made ▸ complete
  | subject => exact Option.some.inj made ▸ complete
  | initial | assign | display | caseValue => cases made

/-- Ending an expression keeps to parts from source text. -/
theorem endExpression_sourced {purpose : Purpose} {expr : Expr}
    (opened : ∀ block ∈ blocks, block.Sourced) (aim : purpose.Sourced) (complete : expr.Sourced) :
    GoesOnSourced (endExpression purpose expr blocks token) := by
  -- A parenthesis closes a condition, a comma goes on with the declaration, a colon opens a case.
  unfold endExpression
  split
  · intro next reached
    obtain ⟨construct, made, rfl⟩ := Option.map_eq_some_iff.mp reached
    exact ⟨Purpose.toConstruct?_sourced aim complete made, opened⟩
  · split
    · rename_i type before name
      refine goesOnSourced_some.mpr ⟨fun declarator member => ?_, opened⟩
      rcases List.mem_cons.mp member with same | member
      · exact same ▸ ⟨⟨name, rfl⟩, fun _ same => Option.some.inj same ▸ complete⟩
      · exact aim declarator member
    · exact goesOnSourced_none
  · -- A value of a case has been read, and its body begins.
    split
    · refine goesOnSourced_some.mpr ⟨trivial, fun block member => ?_⟩
      rcases List.mem_cons.mp member with same | member
      · exact same ▸ ⟨⟨aim, complete⟩, trivial⟩
      · exact opened block member
    · exact goesOnSourced_none
  · -- Anything else has to end a statement.
    intro next reached
    obtain ⟨stmt, made, ended⟩ := Option.bind_eq_some_iff.mp reached
    exact endStatement_sourced opened (Purpose.toStmt?_sourced aim complete made) next ended

/-- Reading an operator keeps to parts from source text. -/
theorem readOperator_sourced {purpose : Purpose} {pending : List Pending} {left : Expr}
    (opened : ∀ block ∈ blocks, block.Sourced) (aim : purpose.Sourced)
    (waits : ∀ waiting ∈ pending, waiting.Sourced) (complete : left.Sourced) :
    GoesOnSourced (readOperator purpose pending left blocks token) := by
  unfold readOperator
  split
  -- What binds at least as tightly as the new operator becomes its left operand.
  · rename_i op stands
    have collapsed := collapse_sourced op.tier complete waits
    refine goesOnSourced_some.mpr ⟨⟨aim, fun waiting member => ?_⟩, opened⟩
    rcases List.mem_cons.mp member with same | member
    · exact same ▸ ⟨Token.binaryOp?_known stands, collapsed.1⟩
    · exact collapsed.2 waiting member
  -- Anything else ends the expression up to the last open parenthesis.
  · have collapsed := collapse_sourced 0 complete waits
    split
    · rename_i expr rest made _
      rw [made] at collapsed
      refine goesOnSourced_some.mpr ⟨⟨aim, fun waiting member => ?_, collapsed.1⟩, opened⟩
      exact collapsed.2 waiting (by simp [member])
    -- No parenthesis is open, so that the whole expression is complete.
    · rename_i expr _ made _
      rw [made] at collapsed
      exact endExpression_sourced opened aim collapsed.1
    · exact goesOnSourced_none

/-- A list of statements that has just been opened is added to the others. -/
theorem opened_sourced {owner : Owner} {braced : Bool} (owned : owner.Sourced)
    (opened : ∀ block ∈ blocks, block.Sourced) :
    ∀ block ∈ (⟨owner, braced, []⟩ : OpenBlock) :: blocks, block.Sourced := by
  intro block member
  -- The new list has no statements yet.
  rcases List.mem_cons.mp member with same | member
  · exact same ▸ ⟨owned, trivial⟩
  · exact opened block member

/-- Opening a body keeps to parts from source text. -/
theorem openBody_sourced {construct : Construct} (braced : Bool)
    (opened : ∀ block ∈ blocks, block.Sourced) (expected : construct.Sourced) :
    (openBody construct braced blocks).Sourced := by
  -- A switch opens no list of statements before its first case.
  cases construct with
  | ifs before test => exact ⟨trivial, opened_sourced expected opened⟩
  | elses chain => exact ⟨trivial, opened_sourced expected opened⟩
  | whiles test => exact ⟨trivial, opened_sourced expected opened⟩
  | switches subject => exact ⟨⟨expected, trivial⟩, opened⟩

/-- Reading the start of a switch keeps to parts from source text. -/
theorem readCases_sourced {switch : OpenSwitch} (opened : ∀ block ∈ blocks, block.Sourced)
    (started : switch.Sourced) : GoesOnSourced (readCases switch blocks token) := by
  have ended := OpenSwitch.toStmt_none_sourced started
  -- A switch may end before its first case, and then it is complete.
  unfold readCases
  split
  · exact goesOnSourced_some.mpr ⟨⟨started, by simp⟩, opened⟩
  · exact goesOnSourced_some.mpr ⟨started, opened⟩
  · exact goesOnSourced_some.mpr ⟨started, opened⟩
  · split
    · exact goesOnSourced_some.mpr ⟨ended, opened⟩
    · exact goesOnSourced_none
  · split
    · exact goesOnSourced_none
    · exact goesOnSourced_some.mpr ⟨ended, opened⟩
  · exact goesOnSourced_none

/-- A declared name is added to those before it. -/
theorem declared_sourced {before : List Declarator} (name : String)
    (earlier : ∀ declarator ∈ before, declarator.Uses .sourced) :
    ∀ declarator ∈ (⟨.ofName name, none⟩ : Declarator) :: before, declarator.Uses .sourced := by
  intro declarator member
  rcases List.mem_cons.mp member with same | member
  · exact same ▸ ⟨⟨name, rfl⟩, by simp⟩
  · exact earlier declarator member

/-- Reading a token keeps to parts from source text. -/
theorem Stage.step_sourced {stage : Stage} (sourced : stage.Sourced) :
    GoesOnSourced (stage.step token) := by
  obtain ⟨mode, blocks⟩ := stage
  obtain ⟨here, opened⟩ := sourced
  dsimp only [Stage.step] at here opened ⊢
  split
  -- The start of the program.
  · exact goesOnSourced_some.mpr ⟨trivial, opened⟩
  · exact goesOnSourced_some.mpr ⟨trivial, opened⟩
  · exact goesOnSourced_some.mpr ⟨trivial, opened⟩
  · exact goesOnSourced_some.mpr ⟨trivial, opened_sourced trivial opened⟩
  · exact startStatement_sourced _ opened
  -- Declarations.
  · exact goesOnSourced_some.mpr ⟨here, opened⟩
  · exact goesOnSourced_some.mpr ⟨⟨here, by simp⟩, opened⟩
  · exact goesOnSourced_some.mpr ⟨declared_sourced _ here, opened⟩
  · refine endStatement_sourced opened ⟨⟨_, rfl⟩, fun declarator member => ?_⟩
    exact declared_sourced _ here declarator (List.mem_reverse.mp member)
  -- Assignments, displays and scans.
  · exact goesOnSourced_some.mpr ⟨⟨trivial, by simp⟩, opened⟩
  · exact goesOnSourced_some.mpr ⟨⟨trivial, by simp⟩, opened⟩
  · exact readOperator_sourced opened trivial (by simp) ⟨_, rfl⟩
  · exact goesOnSourced_some.mpr ⟨⟨trivial, by simp⟩, opened⟩
  · exact goesOnSourced_some.mpr ⟨trivial, opened⟩
  · exact goesOnSourced_some.mpr ⟨trivial, opened⟩
  · exact goesOnSourced_some.mpr ⟨trivial, opened⟩
  · refine endStatement_sourced opened fun target member => ?_
    obtain ⟨spelling, _, same⟩ := List.mem_map.mp member
    exact ⟨spelling, same.symm⟩
  -- Expressions.
  · exact goesOnSourced_some.mpr ⟨⟨here, by simp⟩, opened⟩
  · exact readOperand_sourced opened here.1 here.2
  · exact readOperator_sourced opened here.1 here.2.1 here.2.2
  -- Bodies, switches and the ends of both.
  · exact goesOnSourced_some.mpr ⟨here, opened⟩
  · exact goesOnSourced_some.mpr (openBody_sourced true opened here)
  · exact goesOnSourced_some.mpr ⟨here, opened⟩
  · split
    · exact goesOnSourced_some.mpr ⟨here, opened⟩
    · exact goesOnSourced_none
  · exact goesOnSourced_some.mpr (openBody_sourced false opened here)
  · exact readCases_sourced opened here
  · exact goesOnSourced_some.mpr ⟨trivial, opened_sourced here opened⟩
  · split
    · exact goesOnSourced_some.mpr ⟨here, opened⟩
    · exact goesOnSourced_none
  · exact endStatement_sourced opened here
  -- What may follow a condition with its body.
  · exact goesOnSourced_some.mpr ⟨here, opened⟩
  · exact endStatement_sourced opened (IfChain.toStmt_sourced here trivial)
  · exact goesOnSourced_some.mpr ⟨here, opened⟩
  · refine goesOnSourced_some.mpr ⟨fun chain same => ?_, opened⟩
    exact Option.some.inj same ▸ here
  · exact goesOnSourced_some.mpr (openBody_sourced true opened here)
  · exact goesOnSourced_some.mpr ⟨here, opened⟩
  -- The end of the program, and everything that is refused.
  · exact goesOnSourced_some.mpr ⟨here, opened⟩
  · exact goesOnSourced_none

end Steps

/-- A program that is read in full has only parts from source text. -/
theorem Stage.program?_sourced {stage : Stage} {program : Program} (sourced : stage.Sourced)
    (read : stage.program? = some program) : program.Uses .sourced := by
  obtain ⟨mode, blocks⟩ := stage
  -- Only after the end of the program is there one.
  unfold Stage.program? at read
  split at read
  · rename_i body broken place
    obtain rfl := Option.some.inj read
    have here := sourced.mode
    rw [place] at here
    exact here
  · cases read

/-- A text that is read from a stage with parts from source text makes a program of such parts. -/
theorem Reads.sourced {stage : Stage} {text : List Char} {program : Program}
    (reads : Reads stage text program) (sourced : stage.Sourced) : program.Uses .sourced := by
  -- Each token leads to another such stage, and the program is made from the last of them.
  induction reads with
  | ended _ complete => exact Stage.program?_sourced sourced complete
  | token _ _ step _ ih => exact ih (Stage.step_sourced sourced _ step)

/-- Every program that is read from source text has only such parts. -/
theorem parseProgram_sourced {source : String} {program : Program}
    (read : parseProgram source = .ok program) : program.Uses .sourced := by
  obtain ⟨-, reads⟩ := parseProgram_eq_ok_iff.mp read
  exact reads.sourced ⟨trivial, by simp [Stage.initial]⟩

end Pseudocode
