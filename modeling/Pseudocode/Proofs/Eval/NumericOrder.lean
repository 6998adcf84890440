import Pseudocode.Proofs.Eval.FloatArithmetic

/-! The order of numbers: comparing two of them, of whatever kinds, tells exactly one of less, equal
and greater, and never contradicts the exact numbers. -/

namespace Pseudocode

/-- What a comparison says about exact numbers. -/
def CompareOp.Relates : CompareOp → ℚ → ℚ → Prop
  | .eq, p, q => p = q
  | .ne, p, q => p ≠ q
  | .gt, p, q => q < p
  | .lt, p, q => p < q
  | .ge, p, q => q ≤ p
  | .le, p, q => p ≤ q

/-- The comparison that says the same with the operands exchanged. -/
def CompareOp.mirrored : CompareOp → CompareOp
  | .eq => .eq
  | .ne => .ne
  | .gt => .lt
  | .lt => .gt
  | .ge => .le
  | .le => .ge

namespace CompareOp

/-- A comparison holds of two numbers in their order when it says so. -/
theorem holds_compare (op : CompareOp) (p q : ℚ) :
    op.holds (compare p q) = true ↔ op.Relates p q := by
  -- Each comparison is one or two of the three ways in which the numbers can lie.
  rcases lt_trichotomy p q with less | same | more
  · rw [compare_lt_iff_lt.mpr less]
    cases op <;> simp [holds, Relates, less, less.le, less.ne, less.not_gt]
  · rw [compare_eq_iff_eq.mpr same]
    cases op <;> simp [holds, Relates, same]
  · rw [compare_gt_iff_gt.mpr more]
    cases op <;> simp [holds, Relates, more, more.le, more.ne', more.not_gt]

/-- A mirrored comparison says the same of the exchanged numbers. -/
theorem mirrored_relates (op : CompareOp) (p q : ℚ) : op.mirrored.Relates q p ↔ op.Relates p q := by
  -- Equality and its negation are symmetric, and the others are their mirrors by definition.
  cases op with
  | eq => exact eq_comm
  | ne => exact ne_comm
  | _ => exact Iff.rfl

end CompareOp

/-- A map that keeps the order of numbers keeps how they compare. -/
theorem compare_map {α β : Type} [LinearOrder α] [LinearOrder β] {f : α → β} (mono : StrictMono f)
    (a b : α) : compare (f a) (f b) = compare a b := by
  -- The library has this for its own three-way comparison.
  rw [← cmp_eq_compare, ← cmp_eq_compare, mono.cmp_map_eq]

/-- The order of two numbers of a format is that of their values. -/
theorem Binary.order_eq {format : Format} (x y : Binary format) :
    x.order y = compare x.value y.value := by
  -- Both are whole numbers of units of the finer place.
  have unit : (0 : ℚ) < 2 ^ min x.exp y.exp := by positivity
  have mono : StrictMono fun n : ℤ => (n : ℚ) * 2 ^ min x.exp y.exp :=
    fun m n less => mul_lt_mul_of_pos_right (Int.cast_lt.mpr less) unit
  rw [← x.aligned_mul (min_le_left _ _), ← y.aligned_mul (min_le_right _ _)]
  exact (compare_map mono _ _).symm

namespace Binary.Rounds

variable {format : Format} {x : Binary format} {p : ℚ} {s : Bool}

/-- Rounding does not go past a number of the format that is not below. -/
theorem value_le (rounds : x.Rounds p s) {y : Binary format} (le : p ≤ y.value) :
    x.value ≤ y.value := by
  by_contra more
  have near := rounds.nearest y
  -- The other number would be nearer, as it lies in between.
  rw [abs_of_nonpos (by linarith), abs_of_nonpos (by linarith)] at near
  linarith

/-- Rounding does not go past a number of the format that is not above. -/
theorem le_value (rounds : x.Rounds p s) {y : Binary format} (le : y.value ≤ p) :
    y.value ≤ x.value := by
  -- The argument is the one for the other direction.
  by_contra less
  have near := rounds.nearest y
  rw [abs_of_nonneg (by linarith), abs_of_nonneg (by linarith)] at near
  linarith

end Binary.Rounds

/-- An integer that fits in the significand of a float is not changed by rounding. The greatest one
has a significand with a zero at its end. -/
theorem Exact.ofInt_round?_value {n : Int} {x : Single} (small : |n| ≤ 2 ^ 24)
    (rounded : (ofInt n).round? .single = some x) : x.value = n := by
  have magnitude : x.magnitude = (ofInt n).magnitude := by
    rcases small.lt_or_eq with short | full
    · -- A number that is smaller fits in the significand.
      have fits : n.natAbs < 2 ^ Format.single.precision := by
        rw [← Int.natCast_natAbs] at short
        exact_mod_cast short
      have whole : (ofInt n).magnitude = n.natAbs * 2 ^ (0 : ℤ) := by
        rw [ofInt_magnitude, zpow_zero, mul_one, Nat.cast_natAbs, Int.cast_abs]
      exact round?_exact (by decide) fits (by decide) whole rounded
    · -- The bound itself is half of it, moved by one place.
      have half : (ofInt n).magnitude = ((2 ^ 23 : ℕ) : ℚ) * 2 ^ (1 : ℤ) := by
        rw [ofInt_magnitude, ← Int.cast_abs, full]
        norm_num
      exact round?_exact (by decide) (by decide) (by decide) half rounded
  -- The sign is kept, and so the values are equal when the magnitudes are.
  rw [Binary.value_eq, round?_negative rounded, magnitude]
  exact ofInt_value n

namespace Value

/-- The number as which a value is compared with one of some kind. An integer is itself beside an
integer, and what it is rounded to beside a float. -/
def comparand (a : Value) (other : Kind) : ℚ :=
  match a with
  | .integer n =>
    if other = .integer then n.toInt
    else ((Exact.ofInt n.toInt).round? .single).elim 0 Binary.value
  | .float x => x.value
  | _ => 0

variable {a b : Value} {p q : ℚ} {s t : Bool}

/-- A value is a number when there is an exact number that it is. -/
theorem isNumeric_iff : a.isNumeric = true ↔ ∃ p s, a.exactly? = some (p, s) := by
  -- There are two kinds of numbers, and other values are none.
  cases a <;> simp [isNumeric, exactly?]

/-- Beside a float, or as one, a number is compared as the float that it is brought to. -/
theorem comparand_eq_value {x : Single} {other : Kind} (single : a.toSingle? = some x)
    (float : a.kind = .float ∨ other = .float) : a.comparand other = x.value := by
  cases a with
  | integer n =>
    -- The other kind is no integer, since one of the two is a float.
    have apart : other ≠ .integer := by
      rcases float with unlike | rfl
      · cases unlike
      · decide
    rw [comparand, if_neg apart]
    exact congrArg (Option.elim · 0 Binary.value) single
  -- A float is compared as itself.
  | float y =>
    cases single
    rfl
  | _ => cases single

/-- An integer beside an integer, and one that fits in the significand of a float, is compared as
the exact number, as every float is. -/
theorem comparand_eq_exact {other : Kind} (number : a.exactly? = some (p, s))
    (fits : ∀ n, a = .integer n → other = .integer ∨ |n.toInt| ≤ 2 ^ 24) :
    a.comparand other = p := by
  cases a with
  | integer n =>
    -- An integer is rounded to something, and that is the only case in which it could change.
    obtain ⟨x, rounded, -⟩ := toSingle?_rounds number
    cases number
    by_cases apart : other = .integer
    · exact if_pos apart
    · -- Beside a float the integer is rounded, which changes nothing.
      have small := (fits n rfl).resolve_left apart
      rw [← Exact.ofInt_round?_value small rounded, comparand, if_neg apart]
      exact congrArg (Option.elim · 0 Binary.value) rounded
  | float x =>
    cases number
    rfl
  | _ => cases number

/-- Two numbers are both integers, or one of them is a float. -/
theorem integers_or_float (left : a.isNumeric = true) (right : b.isNumeric = true) :
    (∃ m n, a = .integer m ∧ b = .integer n) ∨ a.kind = .float ∨ b.kind = .float := by
  -- The kinds are looked at one after the other.
  cases a with
  | integer m =>
    cases b with
    | integer n => exact .inl ⟨m, n, rfl, rfl⟩
    | float y => exact .inr (.inr rfl)
    | _ => cases right
  | float x => exact .inr (.inl rfl)
  | _ => cases left

/-- Numbers are compared as numbers that lie in the same order, or that are equal. -/
theorem comparand_le (left : a.exactly? = some (p, s)) (right : b.exactly? = some (q, t))
    (le : p ≤ q) : a.comparand b.kind ≤ b.comparand a.kind := by
  obtain ⟨x, single, rounds⟩ := toSingle?_rounds left
  obtain ⟨y, single', rounds'⟩ := toSingle?_rounds right
  rcases integers_or_float (isNumeric_iff.mpr ⟨p, s, left⟩) (isNumeric_iff.mpr ⟨q, t, right⟩) with
    ⟨m, n, rfl, rfl⟩ | float
  · -- Two integers are compared as the numbers they are.
    change (integer m).comparand .integer ≤ (integer n).comparand .integer
    rwa [comparand_eq_exact left fun _ _ => .inl rfl, comparand_eq_exact right fun _ _ => .inl rfl]
  · rw [comparand_eq_value single float, comparand_eq_value single' float.symm]
    -- One of the two is the float itself, and the other is not rounded past it.
    rcases float with kind | kind
    · have exact : x.value = p := by
        rw [← @comparand_eq_value a x .float single (.inr rfl)]
        refine comparand_eq_exact left fun n integer => ?_
        rw [integer] at kind
        cases kind
      -- The left side is exact, and the right one is rounded, but not past it.
      exact rounds'.le_value (exact.trans_le le)
    · have exact : y.value = q := by
        rw [← @comparand_eq_value b y .float single' (.inr rfl)]
        refine comparand_eq_exact right fun n integer => ?_
        rw [integer] at kind
        cases kind
      exact rounds.value_le (le.trans_eq exact.symm)

/-- Comparing two numbers compares the numbers that they are compared as. -/
theorem compare_eq (left : a.isNumeric = true) (right : b.isNumeric = true) (op : CompareOp) :
    applyBinary (.compare op) a b =
      .ok (.boolean (op.holds (Ord.compare (a.comparand b.kind) (b.comparand a.kind)))) := by
  obtain ⟨p, s, number⟩ := isNumeric_iff.mp left
  obtain ⟨q, t, number'⟩ := isNumeric_iff.mp right
  obtain ⟨x, single, -⟩ := toSingle?_rounds number
  obtain ⟨y, single', -⟩ := toSingle?_rounds number'
  rcases integers_or_float left right with ⟨m, n, rfl, rfl⟩ | float
  · -- Integers are compared without rounding.
    simp only [comparand, kind, if_true, compare_map Int.cast_strictMono]
    rfl
  · rw [comparand_eq_value single float, comparand_eq_value single' float.symm, ← Binary.order_eq]
    have present : (a.isAbsent || b.isAbsent) = false := by
      cases a <;> cases b <;> simp_all [isAbsent, isNumeric]
    rw [applyBinary, present]
    -- The rule for floats is the last one, and all rules before it are for other kinds.
    unfold compare
    cases a <;> cases b <;> simp_all [kind, toSingle?, isNumeric]

/-- Of the ways in which two numbers can lie exactly one holds, and three comparisons say that one
of these does not hold. -/
theorem holds_exclusive (order : Ordering) :
    [CompareOp.lt.holds order, CompareOp.eq.holds order, CompareOp.gt.holds order].count true = 1 ∧
    (CompareOp.ne.holds order = !CompareOp.eq.holds order) ∧
    (CompareOp.ge.holds order = !CompareOp.lt.holds order) ∧
    (CompareOp.le.holds order = !CompareOp.gt.holds order) := by
  -- There are three orders, and for each all comparisons are known.
  cases order <;> decide

/-- The comparison of numbers is consistent. It always gives a truth value, exactly one of less,
equal and greater is true, the other three comparisons are the negations of these, and exchanging
the operands mirrors the operator. It never contradicts the exact numbers, and it agrees with them
in full unless a float is compared with an integer that does not fit in the significand of a
float. -/
theorem compare_consistent (left : a.isNumeric = true) (right : b.isNumeric = true) :
    ∃ p s q t, a.exactly? = some (p, s) ∧ b.exactly? = some (q, t) ∧
      ∃ holds : CompareOp → Bool,
        (∀ op, applyBinary (.compare op) a b = .ok (.boolean (holds op))) ∧
        (∀ op, applyBinary (.compare op.mirrored) b a = .ok (.boolean (holds op))) ∧
        [holds .lt, holds .eq, holds .gt].count true = 1 ∧
        (holds .ne = !holds .eq) ∧ (holds .ge = !holds .lt) ∧ (holds .le = !holds .gt) ∧
        (p ≤ q → holds .le = true) ∧
        ((a.kind = b.kind ∨ ∀ n, a = .integer n ∨ b = .integer n → |n.toInt| ≤ 2 ^ 24) →
          ∀ op, holds op = true ↔ op.Relates p q) := by
  obtain ⟨p, s, number⟩ := isNumeric_iff.mp left
  -- Both numbers are compared in one order, from which everything follows.
  obtain ⟨q, t, number'⟩ := isNumeric_iff.mp right
  obtain ⟨one, ne, ge, le⟩ :=
    holds_exclusive (Ord.compare (a.comparand b.kind) (b.comparand a.kind))
  refine ⟨p, s, q, t, number, number', _, compare_eq left right, fun op => ?_, one, ne, ge, le,
    fun below => ?_, fun fits op => ?_⟩
  · -- Both comparisons are those of the exact numbers, seen from the two sides.
    rw [compare_eq right left, Except.ok.injEq, boolean.injEq, Bool.eq_iff_iff,
      CompareOp.holds_compare, CompareOp.holds_compare, CompareOp.mirrored_relates]
  · -- Rounding keeps the order, though it may make the two equal.
    rw [CompareOp.holds_compare]
    exact comparand_le number number' below
  · -- Neither of the two is changed when it is brought to the kind of the other.
    have exact : a.comparand b.kind = p := by
      refine comparand_eq_exact number fun n integer => ?_
      rcases fits with same | small
      · exact .inl (by rw [← same, integer]; rfl)
      · exact .inr (small n (.inl integer))
    have exact' : b.comparand a.kind = q := by
      refine comparand_eq_exact number' fun n integer => ?_
      rcases fits with same | small
      · exact .inl (by rw [same, integer]; rfl)
      · exact .inr (small n (.inr integer))
    rw [CompareOp.holds_compare, exact, exact']

/-- The float that is two to the power of twenty-four, and the integer after it. They are told to be
equal, and so the float is not above the integer. -/
theorem compare_consistent_crowded :
    ∃ x : Single, x.value = 16777216 ∧ (float x).isNumeric = true ∧
      (integer 16777217).isNumeric = true ∧
      applyBinary (.compare .eq) (float x) (integer 16777217) = .ok (.boolean true) ∧
      applyBinary (.compare .le) (float x) (integer 16777217) = .ok (.boolean true) ∧
      applyBinary (.compare .ge) (integer 16777217) (float x) = .ok (.boolean true) := by
  let x : Single := ⟨false, 2 ^ 23, 1, by decide⟩
  -- The significand is half of the value, which the exponent doubles.
  have value : x.value = 16777216 := by norm_num [x, Binary.value, Binary.signed]
  have equal : applyBinary (.compare .eq) (float x) (integer 16777217) = .ok (.boolean true) := by
    decide +kernel
  obtain ⟨p, s, q, t, number, number', holds, compared, mirrored, -, -, -, -, below, -⟩ :=
    @compare_consistent (float x) (integer 16777217) rfl rfl
  cases number
  cases number'
  -- The exact numbers are in this order, and the comparison does not contradict them.
  have least : holds .le = true := by
    have same : (16777217 : Int32).toInt = 16777217 := by decide
    apply below
    rw [value, same]
    norm_num
  refine ⟨x, value, rfl, rfl, equal, ?_, ?_⟩
  · rw [compared, least]
  · rw [← least]
    exact mirrored .le

end Value

end Pseudocode
