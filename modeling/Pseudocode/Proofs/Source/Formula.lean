import Pseudocode.Proofs.Source.Layout

/-! The text of an expression, with parentheses only where the tiers of its operators require them,
is read as the expression that it was made from. -/

namespace Pseudocode

/-- An expression that can be written, with the spelling of its literals and names. -/
inductive Formula where
  | atom (leaf : Leaf)
  -- An operator that is not known cannot be written.
  | unary (op : UnaryOp) (known : op.Known) (operand : Formula)
  | binary (op : BinaryOp) (known : op.Known) (left right : Formula)

/-- The tiers of expressions, from the loosest to the tightest. -/
inductive Tier where
  | logic
  | negation
  | comparison
  | sum
  | product
  | sign
  | atom
deriving DecidableEq, Repr

/-- How tightly a tier binds. -/
def Tier.rank : Tier → Nat
  | .logic => 1
  | .negation => 2
  | .comparison => 3
  | .sum => 4
  | .product => 5
  | .sign => 6
  | .atom => 7

namespace Formula

/-- The expression that a formula is. -/
def toExpr : Formula → Expr
  | .atom leaf => leaf.toExpr
  | .unary op _ operand => .unary op operand.toExpr
  | .binary op _ left right => .binary op left.toExpr right.toExpr

/-- The tier of an operator with one operand. -/
def unaryTier : UnaryOp → Tier
  | .not => .negation
  | .sign _ => .sign
  -- No formula has such an operator; any tier would do.
  | .unknown _ => .atom

/-- The tier of an operator with two operands. -/
def binaryTier : BinaryOp → Tier
  | .logic .and | .logic .or => .logic
  | .compare _ => .comparison
  | .arith .add | .arith .sub | .join .beside | .join .below => .sum
  | .arith .mul | .arith .div | .arith .rem => .product
  | .unknown _ => .atom

/-- Put parentheses around some words. -/
def enclosed (words : List String) : List String :=
  "(" :: (words ++ [")"])

/-- The words of a formula, where no tier below the given rank may stand without parentheses. Every
operator with two operands is left associative. -/
def words (least : Nat) : Formula → List String
  | .atom leaf => [String.ofList leaf.token.chars]
  | .unary op _ operand =>
    let rank := (unaryTier op).rank
    -- An operand of a sign or a negation may be of the same tier without parentheses.
    let inner := op.symbol :: operand.words rank
    if rank < least then enclosed inner else inner
  | .binary op _ left right =>
    let rank := (binaryTier op).rank
    -- To the right the same tier needs parentheses, and to the left it does not.
    let inner := left.words rank ++ op.symbol :: right.words (rank + 1)
    if rank < least then enclosed inner else inner

/-- The text of a formula, with single blanks between its words. -/
def text (formula : Formula) : String :=
  " ".intercalate (formula.words 0)

end Formula

/-- The parser has known unary operators on the tiers that they have. -/
theorem UnaryOp.tier_eq_rank {op : UnaryOp} (known : op.Known) :
    op.tier = (Formula.unaryTier op).rank := by
  cases op with
  -- An operator that is not known is excluded.
  | unknown symbol => exact absurd rfl (known symbol)
  | _ => rfl

/-- The parser has known binary operators on the tiers that they have. -/
theorem BinaryOp.tier_eq_rank {op : BinaryOp} (known : op.Known) :
    op.tier = (Formula.binaryTier op).rank := by
  cases op with
  | unknown symbol => exact absurd rfl (known symbol)
  -- The tiers of these depend on the operator, and each is looked up on both sides.
  | arith op | join op | logic op => cases op <;> rfl
  | compare op => rfl

/-- A known unary operator is written as one token. -/
theorem UnaryOp.exists_token {op : UnaryOp} (known : op.Known) :
    ∃ token : Token, token.unaryOp? = some op ∧ token.chars = op.symbol.toList := by
  cases op with
  | unknown symbol => exact absurd rfl (known symbol)
  | not => exact ⟨.keyword .negation, rfl, rfl⟩
  -- A sign is the same token as the operator of a sum; what stands before it tells them apart.
  | sign op =>
    cases op with
    | plus => exact ⟨.plus, rfl, rfl⟩
    | minus => exact ⟨.minus, rfl, rfl⟩

/-- A known binary operator is written as one token. -/
theorem BinaryOp.exists_token {op : BinaryOp} (known : op.Known) :
    ∃ token : Token, token.binaryOp? = some op ∧ token.Writable ∧
      token.chars = op.symbol.toList := by
  cases op with
  -- An operator that is not known has no token.
  | unknown symbol => exact absurd rfl (known symbol)
  | logic op => exact ⟨.keyword (.logic op), rfl, trivial, rfl⟩
  | compare op => exact ⟨.compare op, rfl, trivial, rfl⟩
  | join op =>
    cases op with
    | beside => exact ⟨.ampersand, rfl, trivial, rfl⟩
    | below => exact ⟨.dollar, rfl, trivial, rfl⟩
  -- The three operators of products share one kind of token.
  | arith op =>
    cases op with
    | add => exact ⟨.plus, rfl, trivial, rfl⟩
    | sub => exact ⟨.minus, rfl, trivial, rfl⟩
    | mul => exact ⟨.scale .mul, rfl, .inl rfl, rfl⟩
    | div => exact ⟨.scale .div, rfl, .inr (.inl rfl), rfl⟩
    | rem => exact ⟨.scale .rem, rfl, .inr (.inr rfl), rfl⟩

/-- Parentheses are tokens too. -/
theorem Formula.map_chars_enclosed {tokens : List Token} {words : List String}
    (same : tokens.map Token.chars = words.map String.toList) :
    (Token.leftParen :: (tokens ++ [.rightParen])).map Token.chars =
      (enclosed words).map String.toList := by
  -- The characters of a parenthesis are the word that it is.
  simp only [enclosed, List.map_cons, List.map_append, List.map_nil, same]
  rfl

/-- The words of a formula are the tokens of its expression. -/
theorem Formula.exists_written (formula : Formula) (least : Nat) :
    ∃ tokens, Written least formula.toExpr tokens ∧
      tokens.map Token.chars = (formula.words least).map String.toList := by
  -- The induction is on the formula, for any rank that its place asks for.
  induction formula generalizing least with
  | atom leaf => exact ⟨[leaf.token], .leaf leaf, by simp [words]⟩
  | unary op known operand ih =>
    obtain ⟨token, stands, spelled⟩ := UnaryOp.exists_token known
    have rank := UnaryOp.tier_eq_rank known
    obtain ⟨tokens, written, same⟩ := ih op.tier
    rw [words, ← rank]
    split
    · -- In parentheses there is no level to keep to.
      have inner : Written 0 (.unary op operand.toExpr) (token :: tokens) :=
        .unary stands (Nat.zero_le _) written
      exact ⟨_, .paren inner, map_chars_enclosed (by simp [spelled, same])⟩
    · -- The tier is high enough for the place.
      exact ⟨_, .unary stands (by omega) written, by simp [spelled, same]⟩
  | binary op known left right ih ih' =>
    obtain ⟨token, stands, writable, spelled⟩ := BinaryOp.exists_token known
    have rank := BinaryOp.tier_eq_rank known
    -- The left operand may have an operator of the same tier, the right one may not.
    obtain ⟨before, written, same⟩ := ih op.tier
    obtain ⟨after, written', same'⟩ := ih' (op.tier + 1)
    rw [words, ← rank]
    split
    · -- The parentheses make a place in which every tier may stand.
      have inner : Written 0 (.binary op left.toExpr right.toExpr) (before ++ token :: after) :=
        .binary stands writable (Nat.zero_le _) written written'
      exact ⟨_, .paren inner, map_chars_enclosed (by simp [spelled, same, same'])⟩
    · exact ⟨_, .binary stands writable (by omega) written written',
        by simp [spelled, same, same']⟩

/-- Expressions with parentheses around every operator and its operands. -/
inductive Enclosed : Expr → List Token → Prop where
  | leaf (leaf : Leaf) : Enclosed leaf.toExpr [leaf.token]
  | unary {op : UnaryOp} {token : Token} {operand : Expr} {tokens : List Token}
    (stands : token.unaryOp? = some op) (inner : Enclosed operand tokens) :
    Enclosed (.unary op operand) (.leftParen :: (token :: tokens ++ [.rightParen]))
  | binary {op : BinaryOp} {token : Token} {left right : Expr} {before after : List Token}
    (stands : token.binaryOp? = some op) (writable : token.Writable)
    (first : Enclosed left before) (second : Enclosed right after) :
    Enclosed (.binary op left right) (.leftParen :: (before ++ token :: after ++ [.rightParen]))

/-- An expression with all its parentheses may stand at every level. -/
theorem Enclosed.written {expr : Expr} {tokens : List Token} (enclosed : Enclosed expr tokens)
    (level : Nat) : Written level expr tokens := by
  -- Every part that is no leaf is in parentheses, and those may stand anywhere.
  induction enclosed generalizing level with
  | leaf leaf => exact .leaf leaf
  | unary stands _ ih => exact .paren (.unary stands (Nat.zero_le _) (ih _))
  | binary stands writable _ _ ih ih' =>
    exact .paren (.binary stands writable (Nat.zero_le _) (ih _) (ih' _))

/-- A formula has tokens with all its parentheses. -/
theorem Formula.exists_enclosed (formula : Formula) :
    ∃ tokens, Enclosed formula.toExpr tokens := by
  -- The induction puts parentheses around every step.
  induction formula with
  | atom leaf => exact ⟨_, .leaf leaf⟩
  | unary op known _ ih =>
    obtain ⟨token, stands, -⟩ := UnaryOp.exists_token known
    obtain ⟨tokens, inner⟩ := ih
    exact ⟨_, .unary stands inner⟩
  | binary op known _ _ ih ih' =>
    obtain ⟨token, stands, writable, -⟩ := BinaryOp.exists_token known
    obtain ⟨before, first⟩ := ih
    obtain ⟨after, second⟩ := ih'
    exact ⟨_, .binary stands writable first second⟩

/-- The text of a formula is read as its expression: a program that displays it is read as the
program with this one statement. -/
theorem Formula.parseProgram_text (formula : Formula) :
    parseProgram ("BEGIN CODE\nDISPLAY: " ++ formula.text ++ "\nEND CODE") =
      .ok ⟨[.display formula.toExpr]⟩ := by
  -- At the outermost place there is no tier to keep to.
  obtain ⟨tokens, written, same⟩ := formula.exists_written 0
  -- Its words are the characters of these tokens, with single blanks between them.
  have inner : Spells tokens formula.text.toList := by
    rw [Formula.text, String.toList_intercalate, ← same]
    exact Spells.intercalate written.ne_nil fun token member => (written.writable token member).1
  -- The first token is needed by itself, since the blank before it depends on it.
  obtain ⟨first, tokens, rfl⟩ := List.exists_cons_of_ne_nil written.ne_nil
  -- The colon stands right after its word, and the blank before the formula.
  have blank : Gap first [' '] [] := .inline rfl
  have colon : Spells [.colon] [':'] := .last trivial
  have spells : Spells (.keyword .display :: .colon :: first :: tokens)
      ("DISPLAY".toList ++ (':' :: ' ' :: formula.text.toList)) :=
    @Spells.next (.keyword .display) .colon [] _ [] _ trivial rfl (.inline rfl)
      (colon.append blank (List.cons_ne_nil _ _) inner)
  have arranged : ArrangedAll [.display formula.toExpr]
      -- The separator that a program needs stands after its last statement.
      (.keyword .display :: .colon :: (first :: tokens) ++ [.separator]) :=
    .more (.display written) .none
  have laid := Layout.of_spells arranged spells
  have source : "BEGIN CODE\nDISPLAY: " ++ formula.text ++ "\nEND CODE" = "BEGIN CODE\n" ++
      String.ofList ("DISPLAY".toList ++ (':' :: ' ' :: formula.text.toList)) ++ "\nEND CODE" := by
    -- Both sides are the same characters, only put together in another order.
    rw [← String.toList_inj]
    simp only [String.toList_append, String.toList_ofList]
    rfl
  rw [source]
  exact laid.parseProgram_eq

end Pseudocode
