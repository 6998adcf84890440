import Pseudocode.Syntax.Tree

/-! Statements of which all parts are allowed: their expressions, targets and types. -/

namespace Pseudocode

/-- What the parts of a statement are allowed to be. -/
structure Parts where
  /-- The expressions that may stand in it. -/
  expr : Expr → Prop
  /-- What may be declared, assigned or scanned. -/
  target : Target → Prop
  /-- What a variable may be declared as. -/
  typing : Typing → Prop
  /-- Whether there may be places without a statement. -/
  stray : Prop

/-- Anything at all is allowed. -/
def Parts.any : Parts where
  expr _ := True
  target _ := True
  typing _ := True
  stray := True

/-- An operator with two operands that the language has. -/
def BinaryOp.Known (op : BinaryOp) : Prop :=
  ∀ symbol, op ≠ .unknown symbol

/-- An operator with one operand that the language has. -/
def UnaryOp.Known (op : UnaryOp) : Prop :=
  ∀ symbol, op ≠ .unknown symbol

/-- An expression that source text can spell. -/
def Expr.Sourced : Expr → Prop
  -- Source text has values as literals and names as labels, and leaves no place empty.
  | .literal content => ∃ value, content = .value value
  | .ident label => ∃ spelling, label = .name spelling
  | .newline => True
  | .unary op operand => op.Known ∧ operand.Sourced
  | .binary op left right => op.Known ∧ left.Sourced ∧ right.Sourced
  | .stray _ => False

/-- The parts that statements in source text have. -/
def Parts.sourced : Parts where
  -- Only what source text has no words for is excluded.
  expr := Expr.Sourced
  target target := ∃ spelling, target = .ofName spelling
  typing typing := ∃ type, typing = .known type
  stray := False

/-- A declared name and its initial value are allowed. -/
def Declarator.Uses (parts : Parts) (declarator : Declarator) : Prop :=
  -- Without an initial value only the name counts.
  parts.target declarator.name ∧ ∀ expr, declarator.initial = some expr → parts.expr expr

mutual

/-- All parts of a statement are allowed. -/
def Stmt.Uses (parts : Parts) : Stmt → Prop
  | .declare typing declarators =>
    parts.typing typing ∧ ∀ declarator ∈ declarators, declarator.Uses parts
  | .assign targets value => (∀ target ∈ targets, parts.target target) ∧ parts.expr value
  | .ifElse test body otherwise =>
    parts.expr test ∧ blockUses parts body ∧ otherwise.Uses parts
  | .repeatWhile test body => parts.expr test ∧ blockUses parts body
  | .switch subject cases none => parts.expr subject ∧ casesUse parts cases
  | .switch subject cases (some body) =>
    parts.expr subject ∧ casesUse parts cases ∧ blockUses parts body
  | .breakOut => True
  | .display value => parts.expr value
  | .scan names => ∀ name ∈ names, parts.target name
  -- A body that is no list of statements is a place without a statement, too.
  | .stray _ | .noBlock _ => parts.stray

/-- All parts of what a condition leaves to be done are allowed. -/
def Otherwise.Uses (parts : Parts) : Otherwise → Prop
  | .nothing => True
  | .block body => blockUses parts body
  | .elseIf test body otherwise =>
    parts.expr test ∧ blockUses parts body ∧ otherwise.Uses parts

/-- All parts of some statements are allowed. -/
def blockUses (parts : Parts) : List Stmt → Prop
  | [] => True
  | stmt :: rest => stmt.Uses parts ∧ blockUses parts rest

/-- All parts of some cases are allowed. -/
def casesUse (parts : Parts) : List Case → Prop
  | [] => True
  | .mk value body :: rest =>
    -- Cases are gone through in their order, and their bodies with them.
    (parts.expr value ∧ blockUses parts body) ∧ casesUse parts rest

end

/-- The parts of statements are allowed when those of each statement are. -/
theorem blockUses_iff (parts : Parts) (body : List Stmt) :
    blockUses parts body ↔ ∀ stmt ∈ body, stmt.Uses parts := by
  -- The recursion of the condition is the one on the list.
  induction body with
  -- Where nothing stands, nothing has to be allowed.
  | nil => simp [blockUses]
  | cons stmt rest ih => simp [blockUses, ih]

/-- The parts of cases are allowed when the value and the body of each case are. -/
theorem casesUse_iff (parts : Parts) (cases : List Case) :
    casesUse parts cases ↔
      ∀ clause ∈ cases, parts.expr clause.value ∧ blockUses parts clause.body := by
  induction cases with
  | nil => simp [casesUse]
  | cons clause rest ih =>
    -- A case has to be taken apart before its value and body can be named.
    obtain ⟨value, body⟩ := clause
    simp [casesUse, ih, Case.value, Case.body]

mutual

/-- Every statement has parts of some kind. -/
theorem Stmt.uses_any (stmt : Stmt) : stmt.Uses .any := by
  -- The tree is followed downwards; at each leaf the condition is that anything goes.
  cases stmt with
  -- Each name and each initial value is allowed.
  | declare typing declarators => simp [Stmt.Uses, Declarator.Uses, Parts.any]
  | assign targets value => simp [Stmt.Uses, Parts.any]
  | ifElse test body otherwise =>
    exact ⟨trivial, blockUses_any body, otherwise.uses_any⟩
  | repeatWhile test body => exact ⟨trivial, blockUses_any body⟩
  | switch subject cases default =>
    -- A default is a body like any other.
    cases default with
    | none => exact ⟨trivial, casesUse_any cases⟩
    | some body => exact ⟨trivial, casesUse_any cases, blockUses_any body⟩
  | breakOut => trivial
  | display value => trivial
  | scan names => simp [Stmt.Uses, Parts.any]
  | stray defect => trivial
  | noBlock node => trivial

/-- Everything that a condition leaves to be done has parts of some kind. -/
theorem Otherwise.uses_any (otherwise : Otherwise) : otherwise.Uses .any := by
  cases otherwise with
  | nothing => trivial
  | block body => exact blockUses_any body
  | elseIf test body otherwise =>
    exact ⟨trivial, blockUses_any body, otherwise.uses_any⟩

/-- All statements have parts of some kind. -/
theorem blockUses_any (body : List Stmt) : blockUses .any body := by
  cases body with
  -- Statements are followed one by one.
  | nil => trivial
  | cons stmt rest => exact ⟨stmt.uses_any, blockUses_any rest⟩

/-- All cases have parts of some kind. -/
theorem casesUse_any (cases : List Case) : casesUse .any cases := by
  -- The recursion is that of the condition: on the rest of the list, and into each body.
  match cases with
  | [] => trivial
  | .mk value body :: rest => exact ⟨⟨trivial, blockUses_any body⟩, casesUse_any rest⟩

end

/-- All statements of a program have allowed parts. -/
def Program.Uses (parts : Parts) (program : Program) : Prop :=
  blockUses parts program.body

end Pseudocode
