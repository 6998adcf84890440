import Pseudocode.Proofs.Source.Framing
import Pseudocode.Proofs.Source.Sourced

/-! How expressions are written as tokens, with at least the parentheses that they need, and how
such tokens are read: the waiting operators are given their operands as if the expression were
one. -/

namespace Pseudocode

/-- The number that digits before and after a point stand for. -/
def pointed (whole fraction : List Char) : Decimal where
  -- The digits on both sides are read as one number, which is then moved by the places of the
  -- fraction.
  negative := false
  digits := Nat.ofDigitChars 10 (whole ++ fraction) 0
  exp := -(fraction.length : Int)

/-- An expression that is written as one token. -/
inductive Leaf where
  /-- A whole number in range. -/
  | integer (n : Nat) (inRange : n ≤ 2147483647)
  /-- A number with a fraction, by its digits and its value. -/
  | decimal (whole fraction : List Char) (value : Single) (first : IsNumeral whole)
    (second : IsNumeral fraction)
    (inRange : (pointed whole fraction).toDouble.toSingle? = some value)
  /-- A character in single quotes. -/
  | character (c : Char) (free : Unbroken '\'' [c])
  /-- A text in double quotes, which is no truth word. -/
  | quoted (content : List Char) (free : Unbroken '"' content) (plain : truthWord? content = none)
  /-- A text in brackets. -/
  | bracketed (content : List Char) (free : content = [']'] ∨ Unbroken ']' content)
  /-- A truth word in double quotes. -/
  | truth (b : Bool)
  /-- The sign for a new line. -/
  | newline
  /-- The name of a variable. -/
  | name (spelling : List Char) (identifier : IsIdentifier spelling)

namespace Leaf

/-- The token that a leaf is written as. -/
def token : Leaf → Token
  | .integer n _ => .integer (decimalDigits n)
  | .decimal whole fraction _ _ _ _ => .decimal (whole ++ '.' :: fraction)
  | .character c _ => .character c
  | .quoted content _ _ => .quotation content
  | .bracketed content _ => .bracketed content
  | .truth true => .quotation "TRUE".toList
  | .truth false => .quotation "FALSE".toList
  | .newline => .dollar
  | .name spelling _ => .name spelling

/-- The expression that a leaf is. -/
def toExpr : Leaf → Expr
  | .integer n _ => .literal (.value (.ofInt n))
  | .decimal _ _ value _ _ _ => .literal (.value (.float value))
  | .character c _ => .literal (.value (.character c))
  | .quoted content _ _ | .bracketed content _ => .literal (.value (.text (String.ofList content)))
  | .truth b => .literal (.value (.boolean b))
  | .newline => .newline
  | .name spelling _ => .ident (.name (String.ofList spelling))

/-- A leaf can be written. -/
theorem writable (leaf : Leaf) : leaf.token.Writable := by
  cases leaf with
  -- Only the digits of a number have to be checked.
  | integer n =>
    refine ⟨Nat.toDigits_ne_nil, List.all_eq_true.mpr fun c member => ?_⟩
    exact Nat.isDigit_of_mem_toDigits (by decide) (by decide) member
  | decimal whole fraction _ first second => exact ⟨whole, fraction, rfl, first, second⟩
  | character c free => exact free
  | quoted content free => exact free
  | bracketed content free => exact free
  | truth b =>
    -- The truth words have no quotes in them.
    have spelled : Unbroken '"' "TRUE".toList ∧ Unbroken '"' "FALSE".toList := by
      decide
    cases b
    · exact spelled.2
    · exact spelled.1
  | newline => exact trivial
  | name spelling identifier => exact identifier

/-- The digits around a point are read as the number that they stand for. -/
theorem read?_pointed {whole fraction : List Char} (first : IsNumeral whole)
    (second : IsNumeral fraction) :
    Decimal.read? (whole ++ '.' :: fraction) = some (pointed whole fraction) := by
  -- A number without a sign is all digits up to the point, and then again up to its end.
  have unsigned := first.splitSign_append ('.' :: fraction)
  have ended : ([] : List Char).head?.all (fun c => !c.isDigit) = true := rfl
  have rest := Lexer.dropWhile_append_rest second.digits ended
  have taken := Lexer.takeWhile_append_rest second.digits ended
  rw [List.append_nil] at rest taken
  have point : ('.' :: fraction).head?.all (fun c => !c.isDigit) = true := rfl
  simp [Decimal.read?, unsigned, List.span_eq_takeWhile_dropWhile, Decimal.splitFraction,
    Lexer.takeWhile_append_rest first.digits point, Lexer.dropWhile_append_rest first.digits point,
    rest, taken, Decimal.readExponent?, pointed, first.nonempty]

end Leaf

/-- The stages after an operand, for the operators that wait and the operand that they wait for. A
name that starts an assigned value may turn out to be a target. -/
inductive Stage.Holds (purpose : Purpose) (blocks : List OpenBlock) :
    List Pending → Expr → Stage → Prop where
  /-- An operator may follow. -/
  | operator (pending : List Pending) (left : Expr) :
    Holds purpose blocks pending left ⟨.operator purpose pending left, blocks⟩
  /-- A name may be followed by an operator, or may be a target itself. -/
  | target {targets : List String} (name : String) (assigns : purpose = .assign targets) :
    Holds purpose blocks [] (.ident (.name name)) ⟨.perhapsTarget targets name, blocks⟩

/-- A literal may start an operand. -/
theorem Token.startsOperand_of_literal? {token : Token} {value : Value}
    (reads : token.literal? = some value) : token.tokenClass.startsOperand = true := by
  cases token with
  | integer | decimal | character | quotation | bracketed => rfl
  | _ => cases reads

/-- A literal is taken as its value. -/
theorem readOperand_literal {token : Token} {value : Value} (reads : token.literal? = some value)
    (purpose : Purpose) (pending : List Pending) (blocks : List OpenBlock) :
    readOperand purpose pending blocks token =
      some ⟨.operator purpose pending (.literal (.value value)), blocks⟩ := by
  unfold readOperand
  split
  · cases reads
  · cases reads
  · cases reads
  · rw [reads]

/-- A leaf is read as the operand that it is. -/
theorem Leaf.path (leaf : Leaf) (purpose : Purpose) (pending : List Pending)
    (blocks : List OpenBlock) :
    ∃ stage, Stage.Path ⟨.operand purpose pending, blocks⟩ [leaf.token] stage ∧
      stage.Holds purpose blocks pending leaf.toExpr := by
  -- Except for the name and the new line, a leaf is read as a literal.
  have literal : ∀ {token : Token} {value : Value}, token.literal? = some value →
      token.rangeError? = none → ∃ stage,
        Stage.Path ⟨.operand purpose pending, blocks⟩ [token] stage ∧
          stage.Holds purpose blocks pending (.literal (.value value)) := by
    intro token value reads inRange
    have admitted : Mode.admits (.operand purpose pending) token.tokenClass = true := by
      simp [Mode.admits, Token.startsOperand_of_literal? reads]
    exact ⟨_, .single ⟨admitted, inRange, readOperand_literal reads purpose pending blocks⟩,
      .operator pending _⟩
  cases leaf with
  | integer n inRange =>
    -- The digits are read back as the number, which is in range.
    have digits : Nat.ofDigitChars 10 (decimalDigits n) 0 = n := Nat.ofDigitChars_ten_toDigits
    have fits : fitsInt32 n = true := by
      simp only [fitsInt32, Bool.and_eq_true, decide_eq_true_eq]
      omega
    -- The digits stand for a value of the language.
    refine literal ?_ ?_
    · rw [token, Token.literal?, digits]
    · rw [token, Token.rangeError?, digits, if_pos fits]
  | decimal whole fraction value first second inRange =>
    refine literal ?_ ?_
    · simp [token, Token.literal?, read?_pointed first second, Value.ofDouble?, inRange]
    · simp [token, Token.rangeError?, read?_pointed first second, Value.ofDouble?, inRange]
  | character c free => exact literal rfl rfl
  -- A quoted text is read as itself because it is no truth word.
  | quoted content free plain => exact literal (by simp [token, Token.literal?, plain]) rfl
  | bracketed content free => exact literal rfl rfl
  | truth b => cases b <;> exact literal rfl rfl
  | newline => exact ⟨_, .single ⟨rfl, rfl, rfl⟩, .operator pending _⟩
  | name spelling identifier =>
    -- Only at the start of an assigned value can a name be something else.
    cases purpose with
    | assign targets =>
      cases pending with
      | nil => exact ⟨_, .single ⟨rfl, rfl, rfl⟩, .target _ rfl⟩
      | cons waiting pending => exact ⟨_, .single ⟨rfl, rfl, rfl⟩, .operator _ _⟩
    | _ => exact ⟨_, .single ⟨rfl, rfl, rfl⟩, .operator pending _⟩

/-- Expressions as tokens. At a level no operator may stand that binds less tightly, unless in
parentheses. Operators of one tier are given their operands from the left. -/
inductive Written : Nat → Expr → List Token → Prop where
  /-- A leaf stands at every level. -/
  | leaf {level : Nat} (leaf : Leaf) : Written level leaf.toExpr [leaf.token]
  /-- An operator with one operand is followed by something that binds at least as tightly. -/
  | unary {level : Nat} {op : UnaryOp} {token : Token} {operand : Expr} {tokens : List Token}
    (stands : token.unaryOp? = some op) (fits : level ≤ op.tier)
    (inner : Written op.tier operand tokens) : Written level (.unary op operand) (token :: tokens)
  /-- On the left of an operator may stand one of its own tier, on the right only a tighter one. -/
  | binary {level : Nat} {op : BinaryOp} {token : Token} {left right : Expr}
    {before after : List Token} (stands : token.binaryOp? = some op) (writable : token.Writable)
    (fits : level ≤ op.tier) (first : Written op.tier left before)
    (second : Written (op.tier + 1) right after) :
    Written level (.binary op left right) (before ++ token :: after)
  /-- In parentheses everything may stand. -/
  | paren {level : Nat} {inside : Expr} {tokens : List Token} (inner : Written 0 inside tokens) :
    Written level inside (.leftParen :: (tokens ++ [.rightParen]))

/-- An operand at a level belongs to what waits for it: the last waiting operator binds less
tightly. -/
def Fits (level : Nat) : List Pending → Prop
  | .binary op _ :: _ => op.tier < level
  -- An operator with one operand gives way to one of its own tier, since it waits for its operand.
  | .unary op :: _ => op.tier ≤ level
  | _ => True

/-- What fits at a level fits at a tighter one. -/
theorem Fits.mono {level level' : Nat} {pending : List Pending} (fits : Fits level pending)
    (tighter : level ≤ level') : Fits level' pending := by
  cases pending with
  | nil => trivial
  | cons waiting pending =>
    cases waiting with
    | binary op left => exact Nat.lt_of_lt_of_le fits tighter
    | unary op => exact Nat.le_trans fits tighter
    | paren => trivial

/-- No operator with two operands binds as tightly as one with one operand. -/
theorem BinaryOp.tier_ne_unary {op : BinaryOp} (known : op.Known) (other : UnaryOp) :
    op.tier ≠ other.tier := by
  cases op with
  | unknown symbol => exact absurd rfl (known symbol)
  | arith op => cases op <;> cases other <;> simp [tier, UnaryOp.tier]
  | _ => cases other <;> simp [tier, UnaryOp.tier]

/-- Before an operator, an operand that fits is given to none that waits. -/
theorem collapse_of_fits {op : BinaryOp} (known : op.Known) {pending : List Pending}
    (fits : Fits op.tier pending) (operand : Expr) :
    collapse op.tier operand pending = (operand, pending) := by
  cases pending with
  | nil => rfl
  | cons waiting pending =>
    cases waiting with
    -- The waiting operator would take its operand only if it bound at least as tightly.
    | binary other left => exact if_neg (Nat.not_le.mpr fits)
    | unary other =>
      -- It binds at least as tightly, and not as tightly as the one with one operand.
      have apart := op.tier_ne_unary known other
      have fits : other.tier ≤ op.tier := fits
      exact if_neg (by omega)
    | paren => rfl

section Holds

variable {purpose : Purpose} {blocks : List OpenBlock} {pending rest : List Pending}
  {left expr : Expr} {stage : Stage} {token : Token}

/-- After an operand, every token but the sign of an assignment goes to the operators. -/
theorem Stage.Holds.step_eq (holds : stage.Holds purpose blocks pending left)
    (other : token ≠ .equals) :
    stage.step token = readOperator purpose pending left blocks token := by
  cases holds with
  | operator => rfl
  | target name assigns =>
    subst assigns
    cases token with
    | equals => exact absurd rfl other
    | _ => rfl

/-- After an operand, an operator takes what it is given from the left. -/
theorem Stage.Holds.takes_binary {op : BinaryOp} (holds : stage.Holds purpose blocks pending left)
    (stands : token.binaryOp? = some op)
    (given : collapse op.tier left pending = (expr, rest)) :
    stage.Takes token ⟨.operand purpose (.binary op expr :: rest), blocks⟩ := by
  -- Operators are no literals that could be out of range.
  have binary : token.tokenClass.isBinary = true ∧ token.rangeError? = none := by
    unfold Token.binaryOp? at stands
    split at stands
    all_goals first | exact ⟨rfl, rfl⟩ | cases stands
  refine ⟨?_, binary.2, ?_⟩
  -- Both kinds of stages admit operators.
  · cases holds <;> simp [Mode.admits, binary.1]
  · have other : token ≠ .equals := by
      rintro rfl
      cases stands
    rw [holds.step_eq other]
    simp only [readOperator, stands, given]

/-- After an operand, a closing parenthesis ends what stands in it. -/
theorem Stage.Holds.takes_rightParen (holds : stage.Holds purpose blocks pending left)
    (given : collapse 0 left pending = (expr, .paren :: rest)) :
    stage.Takes .rightParen ⟨.operator purpose rest expr, blocks⟩ := by
  cases holds with
  -- Nothing that waits inside the parentheses is left.
  | operator =>
    refine ⟨rfl, rfl, ?_⟩
    change readOperator purpose pending left blocks .rightParen = _
    simp only [readOperator, Token.binaryOp?, given]
  -- A target has nothing waiting before it.
  | target => cases given

end Holds

/-- Before an operand that fits, an operator with one operand may stand. -/
theorem Stage.takes_unary {token : Token} {op : UnaryOp} {level : Nat} {purpose : Purpose}
    {pending : List Pending} {blocks : List OpenBlock} (stands : token.unaryOp? = some op)
    (fits : Fits level pending) (looser : level ≤ op.tier) :
    Stage.Takes ⟨.operand purpose pending, blocks⟩ token
      ⟨.operand purpose (.unary op :: pending), blocks⟩ := by
  unfold Token.unaryOp? at stands
  split at stands
  · -- A negation may not follow an operator that binds more tightly.
    obtain rfl := Option.some.inj stands
    have negates : negationFits pending = true := by
      cases pending with
      | nil => rfl
      | cons waiting pending =>
        cases waiting with
        | binary other left =>
          have fits : other.tier < level := fits
          simp only [negationFits, decide_eq_true_eq]
          omega
        | unary other =>
          have fits : other.tier ≤ level := fits
          simp only [negationFits, decide_eq_true_eq]
          omega
        | paren => rfl
    exact ⟨by simp [Mode.admits, Token.tokenClass, negates], rfl, rfl⟩
  -- The other two operators with one operand may stand wherever an operand may.
  · exact Option.some.inj stands ▸ ⟨rfl, rfl, rfl⟩
  · exact Option.some.inj stands ▸ ⟨rfl, rfl, rfl⟩
  · cases stands

/-- Tokens of an expression are read from where an operand must follow. The operators that wait then
are given the same as if the expression were one operand. -/
theorem Written.path {level : Nat} {expr : Expr} {tokens : List Token}
    (written : Written level expr tokens) {purpose : Purpose} {pending : List Pending}
    {blocks : List OpenBlock} (fits : Fits level pending) :
    ∃ stage pending' left, Stage.Path ⟨.operand purpose pending, blocks⟩ tokens stage ∧
      stage.Holds purpose blocks pending' left ∧
      ∀ tier ≤ level, collapse tier left pending' = collapse tier expr pending := by
  -- An operator waits for its last operand, so that the stage itself does not hold the expression:
  -- the invariant is what the next operator or the end would be given.
  induction written generalizing pending with
  | leaf leaf =>
    -- Nothing changes for what waits when a leaf stands for itself.
    obtain ⟨stage, path, holds⟩ := leaf.path purpose pending blocks
    exact ⟨stage, pending, leaf.toExpr, path, holds, fun _ _ => rfl⟩
  | @unary level op token operand tokens stands looser inner ih =>
    -- The operator waits, and its operand fits it.
    obtain ⟨stage, pending', left, path, holds, same⟩ := @ih (.unary op :: pending) (Nat.le_refl _)
    refine ⟨stage, pending', left, .cons (Stage.takes_unary stands fits looser) path, holds, ?_⟩
    -- Whatever binds no more tightly gives the operator its operand first.
    intro tier below
    rw [same tier (by omega)]
    exact if_pos (by omega)
  | @binary level op token left right before after stands _ looser first second ih ih' =>
    obtain ⟨middle, pending', operand, path, holds, same⟩ := ih (fits.mono looser)
    -- The left operand is complete at the operator, and what waits before it is left alone.
    have given : collapse op.tier operand pending' = (left, pending) := by
      rw [same op.tier (Nat.le_refl _)]
      exact collapse_of_fits (Token.binaryOp?_known stands) (fits.mono looser) left
    -- The right operand has to bind more tightly than the operator that waits for it.
    obtain ⟨stage, pending'', last, path', holds', same'⟩ :=
      @ih' (.binary op left :: pending) (Nat.lt_succ_self _)
    refine ⟨stage, pending'', last, path.append (.cons (holds.takes_binary stands given) path'),
      holds', ?_⟩
    intro tier below
    rw [same' tier (by omega)]
    exact if_pos (by omega)
  | @paren level inside tokens inner ih =>
    obtain ⟨middle, pending', left, path, holds, same⟩ := @ih (.paren :: pending) trivial
    -- The parenthesis holds back whatever waits before it.
    have given : collapse 0 left pending' = (inside, .paren :: pending) := same 0 (Nat.le_refl 0)
    have opens : Stage.Takes ⟨.operand purpose pending, blocks⟩ .leftParen
        ⟨.operand purpose (.paren :: pending), blocks⟩ := ⟨rfl, rfl, rfl⟩
    -- After the closing parenthesis the expression stands as if it were one operand.
    exact ⟨_, pending, inside, .cons opens (path.append (.single (holds.takes_rightParen given))),
      .operator pending inside, fun _ _ => rfl⟩

/-- A stage after a complete expression, before the token that ends it. -/
def Stage.Completes (stage : Stage) (purpose : Purpose) (blocks : List OpenBlock) (expr : Expr) :
    Prop :=
  ∃ pending left, stage.Holds purpose blocks pending left ∧ collapse 0 left pending = (expr, [])

/-- Tokens of an expression lead to where it is complete. -/
theorem Written.path_complete {expr : Expr} {tokens : List Token} (written : Written 0 expr tokens)
    (purpose : Purpose) (blocks : List OpenBlock) :
    ∃ stage, Stage.Path ⟨.operand purpose [], blocks⟩ tokens stage ∧
      stage.Completes purpose blocks expr := by
  -- At the start nothing waits, so that everything fits.
  obtain ⟨stage, pending, left, path, holds, same⟩ :
      ∃ stage pending left, Stage.Path ⟨.operand purpose [], blocks⟩ tokens stage ∧
        stage.Holds purpose blocks pending left ∧
        ∀ tier ≤ 0, collapse tier left pending = collapse tier expr [] := written.path trivial
  exact ⟨stage, path, pending, left, holds, same 0 (Nat.le_refl 0)⟩

section Completes

variable {stage next : Stage} {purpose : Purpose} {blocks : List OpenBlock} {expr : Expr}
  {token : Token}

/-- A token that is no operator ends an expression of which nothing waits any more. -/
theorem Stage.Completes.step_eq (completes : stage.Completes purpose blocks expr)
    (ends : token.binaryOp? = none) (other : token ≠ .equals) :
    stage.step token = endExpression purpose expr blocks token := by
  obtain ⟨pending, left, holds, given⟩ := completes
  rw [holds.step_eq other]
  simp only [readOperator, ends, given]

/-- What may end a statement may end an expression. -/
theorem Stage.Completes.takes_end (completes : stage.Completes purpose blocks expr)
    (ends : token.tokenClass.endsStatement = true)
    (onward : endExpression purpose expr blocks token = some next) : stage.Takes token next := by
  -- None of the tokens that end a statement is a literal or an operator.
  have plain : token.rangeError? = none ∧ token.binaryOp? = none ∧ token ≠ .equals := by
    cases token with
    | separator | rightBrace => exact ⟨rfl, rfl, by decide⟩
    | keyword word =>
      cases word with
      | ends | cases | defaults => exact ⟨rfl, rfl, by decide⟩
      | _ => cases ends
    | _ => cases ends
  refine ⟨?_, plain.1, (completes.step_eq plain.2.1 plain.2.2).trans onward⟩
  obtain ⟨pending, left, holds, -⟩ := completes
  cases holds <;> simp [Mode.admits, ends]

/-- A comma, a colon or a closing parenthesis may end an expression that is not assigned. -/
theorem Stage.Completes.takes_mark (completes : stage.Completes purpose blocks expr)
    (marks : token = .comma ∨ token = .colon ∨ token = .rightParen)
    (other : ∀ targets, purpose ≠ .assign targets)
    (onward : endExpression purpose expr blocks token = some next) : stage.Takes token next := by
  have plain : token.rangeError? = none ∧ token.binaryOp? = none ∧ token ≠ .equals := by
    rcases marks with rfl | rfl | rfl <;> exact ⟨rfl, rfl, by decide⟩
  refine ⟨?_, plain.1, (completes.step_eq plain.2.1 plain.2.2).trans onward⟩
  obtain ⟨pending, left, holds, -⟩ := completes
  -- A target could only be followed by a comma if its value were assigned.
  cases holds with
  | operator => rcases marks with rfl | rfl | rfl <;> rfl
  | target _ assigns => exact absurd assigns (other _)

end Completes

/-- An expression has at least one token. -/
theorem Written.ne_nil {level : Nat} {expr : Expr} {tokens : List Token}
    (written : Written level expr tokens) : tokens ≠ [] := by
  cases written <;> simp

/-- The tokens of an expression can be written, and none of them is the word `CODE`. -/
theorem Written.writable {level : Nat} {expr : Expr} {tokens : List Token}
    (written : Written level expr tokens) :
    ∀ token ∈ tokens, token.Writable ∧ token ≠ .keyword .code := by
  induction written with
  | leaf leaf =>
    intro token member
    obtain rfl := List.mem_singleton.mp member
    refine ⟨leaf.writable, ?_⟩
    intro same
    -- The only words in capital letters that are leaves are quoted.
    cases leaf with
    | truth b => cases b <;> cases same
    | _ => cases same
  | unary stands _ _ ih =>
    intro other member
    -- Of the tokens that stand for an operator with one operand, each is written as itself.
    rcases List.mem_cons.mp member with rfl | inside
    · unfold Token.unaryOp? at stands
      split at stands
      · exact ⟨trivial, by decide⟩
      · exact ⟨trivial, by decide⟩
      · exact ⟨trivial, by decide⟩
      · cases stands
    · exact ih other inside
  | binary stands writable _ _ _ ih ih' =>
    intro other member
    rcases List.mem_append.mp member with inside | inside
    · exact ih other inside
    · rcases List.mem_cons.mp inside with rfl | inside
      · refine ⟨writable, ?_⟩
        rintro rfl
        cases stands
      · exact ih' other inside
  | paren _ ih =>
    intro other member
    simp only [List.mem_cons, List.mem_append, List.not_mem_nil, or_false] at member
    rcases member with rfl | inside | rfl
    · exact ⟨trivial, by decide⟩
    · exact ih other inside
    · exact ⟨trivial, by decide⟩

end Pseudocode
