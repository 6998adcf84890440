import Pseudocode.Proofs.Exec.Step

/-! Display lists: the texts of their items are written in order, with the line breaks that stand
between them, however the joins are grouped. -/

namespace Pseudocode

/-- What a join puts between two texts. -/
def JoinOp.separator : JoinOp → String
  | .beside => ""
  | .below => "\n"

/-- A row of items: the first one, and each later one with the join before it. -/
structure Row (α : Type) where
  /-- The first item. -/
  first : α
  /-- The joins, each with the item after it. -/
  rest : List (JoinOp × α)

namespace Row

variable {α β : Type}

/-- One row after another, with a join between them. -/
def append (op : JoinOp) (left right : Row α) : Row α :=
  ⟨left.first, left.rest ++ (op, right.first) :: right.rest⟩

/-- The items of a row, in order. -/
def items (row : Row α) : List α :=
  row.first :: row.rest.map (·.2)

/-- A row with its items changed and its joins left as they are. -/
def map (change : α → β) (row : Row α) : Row β :=
  ⟨change row.first, row.rest.map fun (op, item) => (op, change item)⟩

/-- The text of a row of texts. -/
def text (row : Row String) : String :=
  row.first ++ String.join (row.rest.map fun (op, item) => op.separator ++ item)

/-- The items of two rows are those of the first and then those of the second. -/
theorem items_append (op : JoinOp) (left right : Row α) :
    (append op left right).items = left.items ++ right.items := by
  simp [append, items]

/-- Two rows are changed each on its own. -/
theorem map_append (change : α → β) (op : JoinOp) (left right : Row α) :
    (append op left right).map change = append op (left.map change) (right.map change) := by
  simp [append, map]

/-- The text of two rows is that of the first, then what the join puts there, then that of the
second. -/
theorem text_append (op : JoinOp) (left right : Row String) :
    (append op left right).text = left.text ++ op.separator ++ right.text := by
  simp [append, text, String.append_assoc]

end Row

/-- The items of a display list, with the joins between them. Every join of its outermost chain is
one of these joins, whichever side it stands on, and everything else is an item. -/
def Expr.row : Expr → Row Expr
  | .binary (.join op) left right => .append op left.row right.row
  | item => ⟨item, []⟩

/-- Two values that are there are joined in a display list whatever they are. -/
theorem Value.join_present {a b : Value} (left : a ≠ .absent) (right : b ≠ .absent) (op : JoinOp) :
    join true op a b = .ok (.text (a.display ++ op.separator ++ b.display)) := by
  -- Neither operand is absent, so the test for that is passed.
  have present : ¬ (a.isAbsent || b.isAbsent) = true := by
    simp only [Bool.or_eq_true, isAbsent_iff, left, right, or_self, not_false_eq_true]
  unfold join
  rw [if_neg present]
  -- Joining with a line break makes the same text, and joining without one puts nothing there.
  cases op with
  | below => rfl
  | beside => simp [JoinOp.separator]

/-- Two data that are there are joined in a display list as their values are. -/
theorem Datum.join_present {a b : Value} (left : a ≠ .absent) (right : b ≠ .absent)
    (op : JoinOp) :
    (Datum.value a).join true op (.value b) =
      .ok (.text (a.display ++ op.separator ++ b.display)) := by
  -- The rule for a missing left operand does not apply.
  have present : ¬ (a.isAbsent && op == .beside) = true := by
    simp only [Bool.and_eq_true, Value.isAbsent_iff, left, false_and, not_false_eq_true]
  simp only [join, combine, toValue, Bind.bind, Except.bind, if_neg present,
    Value.join_present left right]
  rfl

/-- Every item of a row gives the given value in a store, and none of these values is absent. -/
def Row.Gives (store : Store) (given : Expr → Value) (row : Row Expr) : Prop :=
  ∀ item ∈ row.items, item.eval store = .ok (.value (given item)) ∧ given item ≠ .absent

namespace Expr

variable {store : Store} {given : Expr → Value} {expr : Expr}

/-- An expression that is a row of itself gives what its only item gives. -/
theorem evalDisplay_item (alone : expr.row = ⟨expr, []⟩)
    (plain : expr.evalDisplay store = expr.eval store) (gives : expr.row.Gives store given) :
    ∃ v, expr.evalDisplay store = .ok (.value v) ∧ v ≠ .absent ∧
      v.display = (expr.row.map fun item => (given item).display).text := by
  -- The only item is the expression itself, and it is given by assumption.
  obtain ⟨found, present⟩ := gives expr (by simp [alone, Row.items])
  exact ⟨given expr, plain.trans found, present, by simp [alone, Row.map, Row.text]⟩

/-- A display list whose items are all there gives something that is shown as the row of their
texts. -/
theorem evalDisplay_row (gives : expr.row.Gives store given) :
    ∃ v, expr.evalDisplay store = .ok (.value v) ∧ v ≠ .absent ∧
      v.display = (expr.row.map fun item => (given item).display).text := by
  -- The induction is on the expression: joins are split, and everything else is an item.
  induction expr with
  | binary op left right ihLeft ihRight =>
    cases op with
    | join op =>
      -- What each side gives is shown as its own row, and a text is shown as it is.
      rw [row, Row.Gives, Row.items_append] at gives
      obtain ⟨v, found, present, shown⟩ :=
        ihLeft fun item member => gives item (List.mem_append_left _ member)
      obtain ⟨w, found', present', shown'⟩ :=
        ihRight fun item member => gives item (List.mem_append_right _ member)
      refine ⟨.text (v.display ++ op.separator ++ w.display), ?_, by simp, ?_⟩
      · simp only [evalDisplay, found, found', Bind.bind, Except.bind,
          Datum.join_present present present']
        rfl
      · rw [row, Row.map_append, Row.text_append, ← shown, ← shown']
        rfl
    -- Other operators are evaluated in a display list as they are anywhere.
    | _ => exact evalDisplay_item rfl rfl gives
  | _ => exact evalDisplay_item rfl rfl gives

end Expr

namespace Stmt

variable {settings : Settings} {given : Expr → Value} {world : World}

/-- Displaying a list whose items are all there writes the text of their row, and does nothing else
but to trace its start. -/
theorem exec_display_row {value : Expr} (gives : value.row.Gives world.store given) :
    (Stmt.display value).exec settings world =
      (.ok .normal, (world.noting settings (.start "DisplayStmt")).writing
        (value.row.map fun item => (given item).display).text) := by
  obtain ⟨v, found, -, shown⟩ := Expr.evalDisplay_row gives
  -- The statement traces its start, evaluates, and writes what the text is.
  simp [exec, noteStart, kindName, Exec.bind_run, Exec.map_run, found, Datum.toValue, shown]

/-- A display list is written in order, however it is grouped. When all of its items are there, of
whatever kinds they are, displaying it writes one line, of the texts of the items with a line break
wherever one stands between two of them, and changes nothing else; a run that is traced has the
start of the statement in its trace. Another list with the same items and joins, in the same order,
does the same. -/
theorem display_inOrder {value : Expr} (gives : value.row.Gives world.store given) :
    (Stmt.display value).exec settings world =
      (.ok .normal, (world.noting settings (.start "DisplayStmt")).writing
        (value.row.map fun item => (given item).display).text) ∧
    ∀ other : Expr, other.row = value.row →
      (Stmt.display other).exec settings world = (Stmt.display value).exec settings world := by
  refine ⟨exec_display_row gives, fun other same => ?_⟩
  -- The text depends on the row alone, which both lists share.
  rw [exec_display_row gives, exec_display_row (same ▸ gives), same]

/-- Values of all five kinds, in two groupings of the same joins. Only in the outermost chain may an
integer stand beside a truth value. -/
theorem display_inOrder_grouped :
    ∃ (one two : Expr) (given : Expr → Value) (world : World),
      one.row.Gives world.store given ∧ two.row = one.row ∧
      ((Stmt.display one).exec {} world).2.console.output = #["1TRUE\nc1.0x"] ∧
      (Stmt.display two).exec {} world = (Stmt.display one).exec {} world ∧
      one.eval world.store =
        .error (.fault (.typeMismatch (.join .beside .integer .boolean))) := by
  let value (v : Value) : Expr := .literal (.value v)
  let beside (left right : Expr) : Expr := .binary (.join .beside) left right
  let below (left right : Expr) : Expr := .binary (.join .below) left right
  let number : Expr := .ident (.name "n")
  let truth := value (.boolean true)
  let letter := value (.character 'c')
  -- The number one as a float.
  let fraction := value (.float ⟨false, 2 ^ 23, -23, by decide⟩)
  let word := value (.text "x")
  let world : World := { store := ⟨[⟨.name "n", .known .int, .integer 1⟩]⟩ }
  -- What an item gives is found by evaluating it.
  let given (item : Expr) : Value :=
    (item.eval world.store >>= Datum.toValue).toOption.getD .absent
  -- One list is grouped to the left throughout, the other to the right but for its first join.
  let one := beside (beside (below (beside number truth) letter) fraction) word
  let two := beside number (below truth (beside letter (beside fraction word)))
  -- Each of the five items gives a value when it is evaluated by itself.
  have gives : one.row.Gives world.store given := by
    change ∀ item ∈ [number, truth, letter, fraction, word], _
    simp only [List.forall_mem_cons]
    exact ⟨⟨rfl, by decide⟩, ⟨rfl, by decide⟩, ⟨rfl, by decide⟩, ⟨rfl, by decide⟩,
      ⟨rfl, by decide⟩, by simp⟩
  obtain ⟨written, grouped⟩ := @display_inOrder {} given world one gives
  refine ⟨one, two, given, world, gives, rfl, ?_, grouped two rfl, rfl⟩
  -- The text of the row is computed.
  rw [written]
  decide

end Stmt

end Pseudocode
