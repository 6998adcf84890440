import Pseudocode.Proofs.Syntax.Parts

/-! The labels that occur in a statement: those of the variables that it may change, and those of
the variables that its expressions ask for. -/

namespace Pseudocode

/-- The labels of the variables that an expression asks for. -/
def Expr.labels : Expr → List Label
  | .literal _ | .newline | .stray _ => []
  | .ident label => [label]
  | .unary _ operand => operand.labels
  -- The right side counts too where the run would leave it alone.
  | .binary _ left right => left.labels ++ right.labels

/-- The label of a target, if it has one. -/
def Target.labels : Target → List Label
  | .named label => [label]
  -- Data that calls no variable has no label.
  | .stray _ => []

/-- The labels of a declared name and of its initial value, given those of expressions. -/
def Declarator.gather (ofExpr : Expr → List Label) (declarator : Declarator) : List Label :=
  declarator.name.labels ++ declarator.initial.toList.flatMap ofExpr

mutual

/-- The labels of the targets of a statement and of its expressions, given those of expressions.

Targets are what it declares, assigns or scans, at any depth. -/
def Stmt.gather (ofExpr : Expr → List Label) : Stmt → List Label
  | .declare _ declarators => declarators.flatMap (Declarator.gather ofExpr)
  | .assign targets value => targets.flatMap Target.labels ++ ofExpr value
  | .ifElse test body otherwise =>
    ofExpr test ++ gatherBlock ofExpr body ++ otherwise.gather ofExpr
  | .repeatWhile test body => ofExpr test ++ gatherBlock ofExpr body
  | .switch subject cases none => ofExpr subject ++ gatherCases ofExpr cases
  | .switch subject cases (some body) =>
    ofExpr subject ++ gatherCases ofExpr cases ++ gatherBlock ofExpr body
  | .breakOut => []
  | .display value => ofExpr value
  | .scan names => names.flatMap Target.labels
  -- A place without a statement has no parts that a run could come to.
  | .stray _ | .noBlock _ => []

/-- The labels of what a condition leaves to be done. -/
def Otherwise.gather (ofExpr : Expr → List Label) : Otherwise → List Label
  | .nothing => []
  | .block body => gatherBlock ofExpr body
  | .elseIf test body otherwise =>
    ofExpr test ++ gatherBlock ofExpr body ++ otherwise.gather ofExpr

/-- The labels of some statements. -/
def gatherBlock (ofExpr : Expr → List Label) : List Stmt → List Label
  | [] => []
  | stmt :: rest => stmt.gather ofExpr ++ gatherBlock ofExpr rest

/-- The labels of some cases. -/
def gatherCases (ofExpr : Expr → List Label) : List Case → List Label
  | [] => []
  | .mk value body :: rest =>
    ofExpr value ++ gatherBlock ofExpr body ++ gatherCases ofExpr rest

end

/-- The labels of what a statement declares, assigns or scans. -/
def Stmt.written (stmt : Stmt) : List Label :=
  -- Expressions are left out, since evaluating them changes nothing.
  stmt.gather fun _ => []

/-- The labels that occur in a statement: as what it declares, assigns or scans, or in an
expression. -/
def Stmt.labels (stmt : Stmt) : List Label :=
  stmt.gather Expr.labels

/-- The parts of which all labels are allowed, given the labels of expressions. -/
def Parts.labelled (ofExpr : Expr → List Label) (allowed : Label → Prop) : Parts where
  -- The labels of expressions are given, so that both readings are cases of one.
  expr expr := ∀ label ∈ ofExpr expr, allowed label
  target target := ∀ label ∈ target.labels, allowed label
  typing _ := True
  stray := True

section Uses

variable {ofExpr : Expr → List Label} {allowed : Label → Prop}

/-- A declared name has allowed parts when its labels are allowed. -/
theorem Declarator.uses_of_gather {declarator : Declarator}
    (each : ∀ label ∈ declarator.gather ofExpr, allowed label) :
    declarator.Uses (.labelled ofExpr allowed) := by
  obtain ⟨name, initial⟩ := declarator
  -- The label of the name is the first one of the declared name.
  constructor
  · intro label member
    exact each label (List.mem_append_left _ member)
  · -- The labels of an initial value stand after that of the name.
    rintro expr rfl label member
    exact each label (by simp [gather, member])

mutual

/-- A statement has allowed parts when its labels are allowed. -/
theorem Stmt.uses_of_gather (stmt : Stmt) (each : ∀ label ∈ stmt.gather ofExpr, allowed label) :
    stmt.Uses (.labelled ofExpr allowed) := by
  -- The labels are those of the parts, one after the other, so that each part has its share.
  cases stmt with
  -- A type has no labels in it.
  | declare typing declarators =>
    refine ⟨trivial, fun declarator listed => Declarator.uses_of_gather fun label member => ?_⟩
    -- The labels of all declared names stand in one list.
    exact each label (List.mem_flatMap.mpr ⟨declarator, listed, member⟩)
  -- The labels of the targets come first, then those of the value.
  | assign targets value =>
    simp only [Stmt.gather, List.forall_mem_append] at each
    refine ⟨fun target listed label member => ?_, each.2⟩
    exact each.1 label (List.mem_flatMap.mpr ⟨target, listed, member⟩)
  | ifElse test body otherwise =>
    simp only [Stmt.gather, List.forall_mem_append] at each
    exact ⟨each.1.1, blockUses_of_gather body each.1.2, otherwise.uses_of_gather each.2⟩
  | repeatWhile test body =>
    simp only [Stmt.gather, List.forall_mem_append] at each
    exact ⟨each.1, blockUses_of_gather body each.2⟩
  -- The default is the only part that may be absent.
  | switch subject cases default =>
    cases default with
    | none =>
      simp only [Stmt.gather, List.forall_mem_append] at each
      exact ⟨each.1, casesUse_of_gather cases each.2⟩
    | some body =>
      simp only [Stmt.gather, List.forall_mem_append] at each
      exact ⟨each.1.1, casesUse_of_gather cases each.1.2, blockUses_of_gather body each.2⟩
  | breakOut => trivial
  | display value => exact each
  | scan names =>
    intro name listed label member
    exact each label (List.mem_flatMap.mpr ⟨name, listed, member⟩)
  | stray defect => trivial
  | noBlock node => trivial

/-- What a condition leaves to be done has allowed parts when its labels are allowed. -/
theorem Otherwise.uses_of_gather (otherwise : Otherwise)
    (each : ∀ label ∈ otherwise.gather ofExpr, allowed label) :
    otherwise.Uses (.labelled ofExpr allowed) := by
  cases otherwise with
  | nothing => trivial
  | block body => exact blockUses_of_gather body each
  | elseIf test body otherwise =>
    simp only [Otherwise.gather, List.forall_mem_append] at each
    exact ⟨each.1.1, blockUses_of_gather body each.1.2, otherwise.uses_of_gather each.2⟩

/-- Statements have allowed parts when their labels are allowed. -/
theorem blockUses_of_gather (body : List Stmt)
    (each : ∀ label ∈ gatherBlock ofExpr body, allowed label) :
    blockUses (.labelled ofExpr allowed) body := by
  cases body with
  | nil => trivial
  -- The labels of a list are those of its first statement and those of the rest.
  | cons stmt rest =>
    simp only [gatherBlock, List.forall_mem_append] at each
    exact ⟨stmt.uses_of_gather each.1, blockUses_of_gather rest each.2⟩

/-- Cases have allowed parts when their labels are allowed. -/
theorem casesUse_of_gather (cases : List Case)
    (each : ∀ label ∈ gatherCases ofExpr cases, allowed label) :
    casesUse (.labelled ofExpr allowed) cases := by
  match cases with
  | [] => trivial
  -- The value of a case stands before its body.
  | .mk value body :: rest =>
    simp only [gatherCases, List.forall_mem_append] at each
    exact ⟨⟨each.1.1, blockUses_of_gather body each.1.2⟩, casesUse_of_gather rest each.2⟩

end

end Uses

end Pseudocode
