import Mathlib.Data.List.Sort
import Pseudocode.Source.Boundary

/-! The lines of a text, and those of them that have something to run. Both are described apart from
how they are found, and what is found is what is described. -/

namespace Pseudocode

/-- The characters that end a line. -/
def lineEnds : List Char :=
  ['\n', '\x0b', '\x0c', '\r', '\x1c', '\x1d', '\x1e', '\u0085', '\u2028', '\u2029']

/-- What ends a line before the rest of a text. -/
inductive LineEnding : List Char → List Char → Prop where
  /-- A carriage return and a line feed together end one line. -/
  | pair {after : List Char} : LineEnding ['\r', '\n'] after
  /-- A character that ends lines does so alone, unless it is the first one of such a pair. -/
  | single {c : Char} {after : List Char} (ends : c ∈ lineEnds)
    (alone : c = '\r' → after.head? ≠ some '\n') : LineEnding [c] after

/-- The lines of a text in their order, without what ends them. -/
inductive HasLines : List Char → List (List Char) → Prop where
  /-- An empty text has no lines. -/
  | none : HasLines [] []
  /-- What follows the last line end is a line, unless it is empty. -/
  | last {line : List Char} (nonempty : line ≠ []) (unbroken : ∀ c ∈ line, c ∉ lineEnds) :
    HasLines line [line]
  /-- A line goes up to the first line end, and the others follow after that. -/
  | more {line ending after : List Char} {lines : List (List Char)}
    (unbroken : ∀ c ∈ line, c ∉ lineEnds) (ends : LineEnding ending after)
    (later : HasLines after lines) : HasLines (line ++ (ending ++ after)) (line :: lines)

/-- What is left of a text without the blanks around it. -/
structure Stripped (whole text : List Char) : Prop where
  /-- Nothing but blanks has been dropped at the two ends. -/
  around : ∃ before after, whole = before ++ (text ++ after) ∧
    ∀ c ∈ before ++ after, isBlank c = true
  /-- The first character that is left is no blank. -/
  first : ∀ c ∈ text.head?, isBlank c = false
  /-- Nor is the last one. -/
  last : ∀ c ∈ text.getLast?, isBlank c = false

namespace NumberedLine

/-- A line of a text that has something to run, with its number and without the blanks around it:
something is left of it, which is not a comment. -/
def RunsIn (source : List Char) (line : NumberedLine) : Prop :=
  ∃ lines index whole, HasLines source lines ∧ lines[index]? = some whole ∧
    line.number = index + 1 ∧ Stripped whole line.text ∧
    line.text ≠ [] ∧ line.text.head? ≠ some '#'

/-- A line comes before another one. -/
def Precedes (line other : NumberedLine) : Prop :=
  line.number < other.number

/-- No line comes before itself. -/
instance : Std.Irrefl Precedes where
  irrefl line := Nat.lt_irrefl line.number

/-- Of two lines, at most one comes before the other. -/
instance : Std.Antisymm Precedes where
  antisymm _ _ here there := absurd there (Nat.lt_asymm here)

end NumberedLine

/-- The lines of a text that have something to run, all of them and in their order. -/
structure LinesToRun (source : List Char) (lines : List NumberedLine) : Prop where
  /-- Each line comes before those after it. -/
  ordered : lines.Pairwise NumberedLine.Precedes
  /-- The lines are those that have something to run. -/
  mem_iff : ∀ line, line ∈ lines ↔ line.RunsIn source

section Splitting

variable {line ending after text : List Char} {lines : List (List Char)}

/-- The characters that end a line are recognised. -/
theorem isLineEnd_iff {c : Char} : isLineEnd c = true ↔ c ∈ lineEnds := by
  -- Characters are told apart by their numbers, of which those from 10 to 13 and from 28 to 30 are
  -- in a row.
  simp only [isLineEnd, lineEnds, List.mem_cons, List.not_mem_nil, ← Char.toNat_inj,
    Bool.or_eq_true, Bool.and_eq_true, decide_eq_true_eq, beq_iff_eq, Char.reduceToNat, or_false]
  omega

/-- Splitting goes on after a character that is no carriage return as the character alone says. -/
theorem splitLinesFrom_cons (current text : List Char) {c : Char} (unix : c ≠ '\r') :
    splitLinesFrom current (c :: text) =
      if isLineEnd c then current.reverse :: splitLinesFrom [] text
      else splitLinesFrom (c :: current) text := by
  rw [splitLinesFrom.eq_3]
  intro rest same
  exact absurd same unix

/-- A line end starts a new line. -/
theorem splitLinesFrom_ending (ends : LineEnding ending after) (current : List Char) :
    splitLinesFrom current (ending ++ after) = current.reverse :: splitLinesFrom [] after := by
  cases ends with
  | pair => rfl
  | @single c _ ends alone =>
    have found : isLineEnd c = true := isLineEnd_iff.mpr ends
    rw [List.singleton_append, splitLinesFrom.eq_3, if_pos found]
    -- The rule for pairs does not apply.
    rintro rest rfl rfl
    exact alone rfl rfl

/-- What does not end a line is read into the current one. -/
theorem splitLinesFrom_append (unbroken : ∀ c ∈ line, c ∉ lineEnds) (current rest : List Char) :
    splitLinesFrom current (line ++ rest) = splitLinesFrom (line.reverse ++ current) rest := by
  -- The current line is kept in reverse, with the latest character first.
  induction line generalizing current with
  | nil => rfl
  | cons c line ih =>
    rw [List.forall_mem_cons] at unbroken
    have inside : isLineEnd c = false := by
      rw [Bool.eq_false_iff, Ne, isLineEnd_iff]
      exact unbroken.1
    have unix : c ≠ '\r' := by
      rintro rfl
      exact unbroken.1 (by decide)
    rw [List.cons_append, splitLinesFrom_cons _ _ unix, inside, if_neg Bool.false_ne_true,
      ih unbroken.2, List.reverse_cons, List.append_assoc, List.singleton_append]

/-- Splitting a text gives its lines, the first of which starts with what has been read of it. -/
theorem hasLines_splitLinesFrom (current text : List Char)
    (unbroken : ∀ c ∈ current, c ∉ lineEnds) :
    HasLines (current.reverse ++ text) (splitLinesFrom current text) := by
  -- What has been read is kept in reverse.
  have read : ∀ c ∈ current.reverse, c ∉ lineEnds := fun c member =>
    unbroken c (List.mem_reverse.mp member)
  fun_induction splitLinesFrom current text with
  | case1 current empty =>
    -- Nothing is left of the text, and no line has been begun.
    rw [List.isEmpty_iff.mp empty]
    exact .none
  | case2 current nonempty =>
    -- The text ends in the middle of a line.
    rw [List.append_nil]
    exact .last (by simpa using nonempty) read
  -- A carriage return and a line feed go together.
  | case3 current rest ih => exact .more read .pair (ih (by simp) (by simp))
  | case4 current c rest notPair ends ih =>
    -- A carriage return stands alone here, since the rule for pairs has not applied.
    have alone : c = '\r' → rest.head? ≠ some '\n' := by
      rintro rfl first
      obtain ⟨after, rfl⟩ := List.head?_eq_some_iff.mp first
      exact notPair after rfl rfl
    have later := ih (by simp) (by simp)
    exact .more read (.single (isLineEnd_iff.mp ends) alone) later
  | case5 current c rest notPair inside ih =>
    -- The character goes to the end of the line that is being read.
    have kept : c ∉ lineEnds := mt isLineEnd_iff.mpr inside
    have longer : ∀ d ∈ c :: current, d ∉ lineEnds := List.forall_mem_cons.mpr ⟨kept, unbroken⟩
    have lines := ih longer fun d member => longer d (List.mem_reverse.mp member)
    rwa [List.reverse_cons, List.append_assoc, List.singleton_append] at lines

/-- The lines of a text are those that it is split into. -/
theorem hasLines_iff : HasLines text lines ↔ splitLines text = lines := by
  constructor
  -- The rules that describe the lines are those by which the text is split.
  · intro has
    induction has with
    | none => rfl
    | last nonempty unbroken =>
      have read := splitLinesFrom_append unbroken [] []
      simp only [List.append_nil] at read
      rw [splitLines, read, splitLinesFrom]
      simp [nonempty]
    | more unbroken ends later ih =>
      rw [splitLines, splitLinesFrom_append unbroken, splitLinesFrom_ending ends, List.append_nil,
        List.reverse_reverse, ← ih]
      rfl
  · rintro rfl
    exact hasLines_splitLinesFrom [] text (by simp)

end Splitting

/-- What is left without the blanks around it is found by dropping them. -/
theorem stripped_iff {whole text : List Char} : Stripped whole text ↔ trim whole = text := by
  constructor
  · rintro ⟨⟨before, after, rfl, blanks⟩, first, last⟩
    exact trim_surrounded blanks first last
  · rintro rfl
    -- What is dropped at the end is what is dropped at the front of the reverse.
    let rest := whole.dropWhile isBlank
    have front : whole = whole.takeWhile isBlank ++ rest := List.takeWhile_append_dropWhile.symm
    have back : rest = trim whole ++ (rest.reverse.takeWhile isBlank).reverse := by
      rw [trim, trimEnd, ← List.reverse_append, List.takeWhile_append_dropWhile,
        List.reverse_reverse]
    refine ⟨⟨whole.takeWhile isBlank, (rest.reverse.takeWhile isBlank).reverse, ?_, ?_⟩, ?_, ?_⟩
    · -- The three parts together are the whole.
      rw [← back, ← front]
    · intro c member
      rcases List.mem_append.mp member with before | after
      · exact List.all_eq_true.mp List.all_takeWhile c before
      · exact List.all_eq_true.mp List.all_takeWhile c (List.mem_reverse.mp after)
    · -- If anything is left, then it starts as it does before the end is dropped.
      intro c first
      refine head?_dropWhile_isBlank whole c ?_
      change rest.head? = some c
      rw [back, List.head?_append, Option.mem_def.mp first]
      rfl
    · intro c last
      rw [trim, trimEnd, List.getLast?_reverse] at last
      exact head?_dropWhile_isBlank _ c last

/-- The lines that have something to run are found among all lines. -/
theorem mem_activeLines_iff {source : List Char} {line : NumberedLine} :
    line ∈ activeLines source ↔ line.RunsIn source := by
  -- A line is idle when it is empty or a comment.
  have busy : ∀ text, (!isIdleLine text) = true ↔ text ≠ [] ∧ text.head? ≠ some '#' := by
    intro text
    cases text <;> simp [isIdleLine]
  simp only [activeLines, List.mem_filter, List.mem_map, busy, NumberedLine.RunsIn, hasLines_iff,
    stripped_iff, Prod.exists, List.mk_mem_zipIdx_iff_le_and_getElem?_sub]
  constructor
  · -- Lines are counted from one when they are numbered, and from zero when they are looked up.
    rintro ⟨⟨whole, number, ⟨counted, found⟩, rfl⟩, some, noComment⟩
    refine ⟨_, number - 1, whole, rfl, found, ?_, rfl, some, noComment⟩
    exact (Nat.sub_add_cancel counted).symm
  · rintro ⟨_, index, whole, rfl, found, counted, text, some, noComment⟩
    refine ⟨⟨whole, line.number, ⟨?_, ?_⟩, ?_⟩, some, noComment⟩
    · omega
    · rwa [counted, Nat.add_sub_cancel]
    · rw [text]

/-- The lines that have something to run are found in their order. -/
theorem activeLines_ordered (source : List Char) :
    (activeLines source).Pairwise NumberedLine.Precedes := by
  -- Before any line is left out, the numbers are counted up from one.
  have counted : ((splitLines source).zipIdx 1).Pairwise fun here there => here.2 < there.2 := by
    refine List.pairwise_map.mp ?_
    rw [List.zipIdx_map_snd]
    exact List.pairwise_lt_range'
  unfold activeLines
  refine List.Pairwise.filter _ ?_
  exact List.pairwise_map.mpr counted

/-- The lines of a text that have something to run are those that are found. -/
theorem linesToRun_iff {source : List Char} {lines : List NumberedLine} :
    LinesToRun source lines ↔ activeLines source = lines := by
  constructor
  · rintro ⟨ordered, mem_iff⟩
    -- A list in order is determined by its members.
    refine (activeLines_ordered source).eq_of_mem_iff ordered fun line => ?_
    rw [mem_activeLines_iff, mem_iff]
  · rintro rfl
    exact ⟨activeLines_ordered source, fun _ => mem_activeLines_iff⟩

end Pseudocode
