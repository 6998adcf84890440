import Pseudocode.Proofs.Source.CommentBoundary

/-! The boundary check decides which texts are delimited: it passes just those with one opening line
at the start, one closing line at the end and something between them, and otherwise it says what is
wrong and where. -/

namespace Pseudocode

/-- A line is a word and `CODE` with blanks between them, and after them perhaps more blanks and a
comment. -/
def Delimits (word line : List Char) : Prop :=
  -- The blanks in the middle are needed, those behind are not.
  ∃ gap pad note, line = word ++ (gap ++ ("CODE".toList ++ (pad ++ note))) ∧ gap ≠ [] ∧
    (∀ c ∈ gap ++ pad, isBlank c = true) ∧ (note = [] ∨ ∃ comment, note = '#' :: comment)

namespace NumberedLine

/-- A line that opens a program. -/
def Opens (line : NumberedLine) : Prop :=
  Delimits "BEGIN".toList line.text

/-- A line that closes a program. -/
def Closes (line : NumberedLine) : Prop :=
  Delimits "END".toList line.text

end NumberedLine

/-- There is a line that opens a program. -/
def Opened (lines : List NumberedLine) : Prop :=
  ∃ line ∈ lines, line.Opens

/-- There is a line that closes a program. -/
def Closed (lines : List NumberedLine) : Prop :=
  ∃ line ∈ lines, line.Closes

/-- The first line opens the program and the last one closes it, and no line between them does
either. -/
def Framed (middle lines : List NumberedLine) : Prop :=
  ∃ first last, lines = first :: (middle ++ [last]) ∧ first.Opens ∧ last.Closes ∧
    ∀ line ∈ middle, ¬line.Opens ∧ ¬line.Closes

/-- Lines of a kind are out of place: there are two of them, or there is none at the outer end. -/
def Misplaced (kind : NumberedLine → Prop) (lines : List NumberedLine)
    (outer : Option NumberedLine) : Prop :=
  (∃ line line', [line, line'].Sublist lines ∧ kind line ∧ kind line') ∨
    ∀ line ∈ outer, ¬kind line

/-- The opening lines are not one line at the front. -/
def BeginMisplaced (lines : List NumberedLine) : Prop :=
  Misplaced NumberedLine.Opens lines lines.head?

/-- The closing lines are not one line at the end. -/
def EndMisplaced (lines : List NumberedLine) : Prop :=
  Misplaced NumberedLine.Closes lines lines.getLast?

/-- The number of the first line of a kind. -/
def FirstNumber (kind : NumberedLine → Prop) (lines : List NumberedLine) (n : Nat) : Prop :=
  ∃ before line after, lines = before ++ line :: after ∧ kind line ∧ line.number = n ∧
    ∀ other ∈ before, ¬kind other

/-- The number of the last line of a kind. -/
def LastNumber (kind : NumberedLine → Prop) (lines : List NumberedLine) (n : Nat) : Prop :=
  ∃ before line after, lines = before ++ line :: after ∧ kind line ∧ line.number = n ∧
    ∀ other ∈ after, ¬kind other

/-- Blanks that are dropped stand before what is left, when that does not start with one. -/
theorem dropWhile_isBlank_eq_iff {text rest : List Char}
    (visible : ∀ c ∈ rest.head?, isBlank c = false) :
    text.dropWhile isBlank = rest ↔ ∃ gap, text = gap ++ rest ∧ ∀ c ∈ gap, isBlank c = true := by
  constructor
  · rintro rfl
    refine ⟨text.takeWhile isBlank, List.takeWhile_append_dropWhile.symm, ?_⟩
    exact List.all_eq_true.mp List.all_takeWhile
  · rintro ⟨gap, rfl, blanks⟩
    exact dropWhile_isBlank_append blanks visible

/-- The parts of a boundary line, as they are read from its start. -/
theorem isBoundaryLine_eq_true_iff {word line : List Char} :
    isBoundaryLine word line = true ↔
      ∃ rest after, line = word ++ rest ∧ rest.dropWhile isBlank = "CODE".toList ++ after ∧
        (∃ c ∈ rest.head?, isBlank c = true) ∧ isIdleLine (after.dropWhile isBlank) = true := by
  unfold isBoundaryLine
  constructor
  · intro boundary
    -- The two words are looked for one after the other.
    split at boundary
    · cases boundary
    rename_i rest found
    split at boundary
    · cases boundary
    rename_i after found'
    obtain ⟨head, idle⟩ := Bool.and_eq_true_iff.mp boundary
    refine ⟨rest, after, afterWord?_eq_some_iff.mp found, afterWord?_eq_some_iff.mp found', ?_,
      idle⟩
    -- What follows the word is not empty, or there would be no blank after it.
    cases rest with
    | nil => cases head
    | cons c rest => exact ⟨c, rfl, head⟩
  · rintro ⟨rest, after, rfl, dropped, ⟨c, first, blank⟩, idle⟩
    rw [afterWord?_eq_some_iff.mpr rfl]
    simp only [afterWord?_eq_some_iff.mpr dropped]
    rw [Option.mem_def.mp first, idle]
    simp [blank]

/-- What has nothing to run is empty or a comment. -/
theorem isIdleLine_iff {line : List Char} :
    isIdleLine line = true ↔ line = [] ∨ ∃ comment, line = '#' :: comment := by
  cases line with
  | nil => simp [isIdleLine]
  | cons c rest => simp [isIdleLine]

/-- Boundary lines are recognised by their words. -/
theorem isBoundaryLine_iff {word line : List Char} :
    isBoundaryLine word line = true ↔ Delimits word line := by
  -- `CODE` starts with no blank, so that the blanks before it are dropped up to it.
  have code : ∀ rest : List Char, ∀ c ∈ ("CODE".toList ++ rest).head?, isBlank c = false := by
    rintro rest c ⟨⟩
    decide
  rw [isBoundaryLine_eq_true_iff]
  constructor
  · rintro ⟨rest, after, rfl, dropped, ⟨c, first, blank⟩, idle⟩
    obtain ⟨gap, rfl, blanks⟩ := (dropWhile_isBlank_eq_iff (code after)).mp dropped
    refine ⟨gap, after.takeWhile isBlank, after.dropWhile isBlank, ?_, ?_, ?_,
      isIdleLine_iff.mp idle⟩
    · -- What is dropped after `CODE` and what is left there are the rest of the line.
      rw [List.takeWhile_append_dropWhile]
    · -- The character after the word is a blank, and `CODE` does not start with one.
      rintro rfl
      rw [code after c first] at blank
      cases blank
    · intro d member
      rcases List.mem_append.mp member with inside | inside
      · exact blanks d inside
      · exact List.all_eq_true.mp List.all_takeWhile d inside
  · rintro ⟨gap, pad, note, rfl, nonempty, blanks, commented⟩
    have blanks' := List.forall_mem_append.mp blanks
    have dropped := (dropWhile_isBlank_eq_iff (code (pad ++ note))).mpr ⟨gap, rfl, blanks'.1⟩
    refine ⟨_, pad ++ note, rfl, dropped, ?_, ?_⟩
    · -- The blank that has to follow the word is the first one of the gap.
      cases gap with
      | nil => exact absurd rfl nonempty
      | cons c gap => exact ⟨c, rfl, blanks'.1 c List.mem_cons_self⟩
    · -- Neither a comment nor the end of the line is one of the blanks before it.
      have visible : ∀ c ∈ note.head?, isBlank c = false := by
        rcases commented with rfl | ⟨comment, rfl⟩
        · rintro c ⟨⟩
        · rintro c ⟨⟩
          decide
      rw [(dropWhile_isBlank_eq_iff visible).mpr ⟨pad, rfl, blanks'.2⟩]
      exact isIdleLine_iff.mpr commented

/-- The lines that open a program are recognised. -/
theorem isBeginLine_iff {line : NumberedLine} : isBeginLine line = true ↔ line.Opens :=
  isBoundaryLine_iff

/-- The lines that close a program are recognised. -/
theorem isEndLine_iff {line : NumberedLine} : isEndLine line = true ↔ line.Closes :=
  isBoundaryLine_iff

/-- No line opens and closes a program. -/
theorem NumberedLine.Opens.not_closes {line : NumberedLine} (opens : line.Opens) :
    ¬line.Closes := by
  -- The two words differ in their first letters.
  rintro ⟨gap, pad, note, same, -⟩
  obtain ⟨gap', pad', note', same', -⟩ := opens
  rw [same'] at same
  cases same

/-- No two lines have the same number. -/
theorem activeLines_numbers_nodup (source : List Char) :
    ((activeLines source).map (·.number)).Nodup :=
  -- The numbers grow along the lines.
  List.pairwise_map.mpr ((activeLines_ordered source).imp fun before => Nat.ne_of_lt before)

section Kind

variable {kind : NumberedLine → Prop} {test : NumberedLine → Bool} {lines : List NumberedLine}

/-- There is no line of a kind when none is found. -/
theorem isEmpty_numbers_iff (decides : ∀ line, test line = true ↔ kind line) :
    ((lines.filter test).map (·.number)).isEmpty = true ↔ ¬∃ line ∈ lines, kind line := by
  simp [List.filter_eq_nil_iff, decides]

/-- There are two lines of a kind when more than one is found. -/
theorem one_lt_length_numbers_iff (decides : ∀ line, test line = true ↔ kind line) :
    1 < ((lines.filter test).map (·.number)).length ↔
      ∃ line line', [line, line'].Sublist lines ∧ kind line ∧ kind line' := by
  rw [List.length_map]
  constructor
  · intro more
    -- The first two that are found are two of the lines.
    match found : lines.filter test, more with
    | line :: line' :: rest, _ =>
      have both : [line, line'].Sublist (lines.filter test) := by
        rw [found]
        -- Numbers are looked up for lines that pass the test, and these are all lines of the kind.
        exact ((List.nil_sublist rest).cons_cons line').cons_cons line
      have of_mem {other : NumberedLine} (member : other ∈ [line, line']) : kind other :=
        (decides other).mp (List.mem_filter.mp (both.subset member)).2
      exact ⟨line, line', both.trans List.filter_sublist, of_mem (by simp), of_mem (by simp)⟩
  · -- Two lines of the kind are both found, in the same order.
    rintro ⟨line, line', both, first, second⟩
    have kept : [line, line'].filter test = [line, line'] := by
      simp [(decides line).mpr first, (decides line').mpr second]
    have within := both.filter test
    rw [kept] at within
    exact within.length_le

/-- The first line of a kind has the number of the first line just when it is the first line. -/
theorem head?_numbers_eq_iff (distinct : (lines.map (·.number)).Nodup)
    (decides : ∀ line, test line = true ↔ kind line) (occurs : ∃ line ∈ lines, kind line) :
    ((lines.filter test).map (·.number)).head? = (lines.map (·.number)).head? ↔
      ∃ line ∈ lines.head?, kind line := by
  cases lines with
  | nil =>
    -- Without a line there is none of the kind.
    obtain ⟨line, inside, -⟩ := occurs
    cases inside
  | cons first rest =>
    simp only [List.head?_cons, Option.mem_some_iff, exists_eq_left', List.map_cons]
    cases found : test first with
    -- The first line is of the kind, and so is found first.
    | true => simp [found, (decides first).mp found]
    | false =>
      -- Another line, which has another number, is the first one of the kind.
      have other : ¬kind first := fun same => by simp [(decides first).mpr same] at found
      simp only [List.filter_cons, found, other, iff_false]
      intro same
      have inside := List.mem_of_head? same
      have inside' : first.number ∈ rest.map (·.number) :=
        (List.filter_sublist.map _).subset inside
      exact (List.nodup_cons.mp distinct).1 inside'

/-- The last line of a kind has the number of the last line just when it is the last line. -/
theorem getLast?_numbers_eq_iff (distinct : (lines.map (·.number)).Nodup)
    (decides : ∀ line, test line = true ↔ kind line) (occurs : ∃ line ∈ lines, kind line) :
    ((lines.filter test).map (·.number)).getLast? = (lines.map (·.number)).getLast? ↔
      ∃ line ∈ lines.getLast?, kind line := by
  -- The last line is the first one when the lines are read backwards.
  have distinct' : (lines.reverse.map (·.number)).Nodup := by
    rw [List.map_reverse]
    exact List.pairwise_reverse.mpr (distinct.imp Ne.symm)
  have mirrored := head?_numbers_eq_iff distinct' decides (by simpa using occurs)
  simpa [List.filter_reverse, List.map_reverse] using mirrored

/-- The number that is found first is that of the first line of a kind. -/
theorem head?_numbers_eq_some_iff (decides : ∀ line, test line = true ↔ kind line) {n : Nat} :
    ((lines.filter test).map (·.number)).head? = some n ↔ FirstNumber kind lines n := by
  rw [List.head?_map, List.head?_filter, Option.map_eq_some_iff]
  simp only [List.find?_eq_some_iff_append, decides, FirstNumber]
  constructor
  -- Before the first line that passes the test, none does.
  · rintro ⟨line, ⟨same, before, after, split, none⟩, number⟩
    refine ⟨before, line, after, split, same, number, fun other inside found => ?_⟩
    simpa [(decides other).mpr found] using none other inside
  · rintro ⟨before, line, after, split, same, number, none⟩
    refine ⟨line, ⟨same, before, after, split, fun other inside => ?_⟩, number⟩
    simpa [← decides] using none other inside

/-- Backwards, the first number of a kind is the last one. -/
theorem lastNumber_iff {n : Nat} : LastNumber kind lines n ↔ FirstNumber kind lines.reverse n := by
  constructor
  · rintro ⟨before, line, after, rfl, same, number, none⟩
    -- Reading backwards exchanges what is before a line and what is after it.
    exact ⟨after.reverse, line, before.reverse, by simp, same, number, by simpa using none⟩
  · rintro ⟨before, line, after, split, same, number, none⟩
    refine ⟨after.reverse, line, before.reverse, ?_, same, number, by simpa using none⟩
    rw [← List.reverse_inj, split]
    simp

/-- The number that is found last is that of the last line of a kind. -/
theorem getLast?_numbers_eq_some_iff (decides : ∀ line, test line = true ↔ kind line) {n : Nat} :
    ((lines.filter test).map (·.number)).getLast? = some n ↔ LastNumber kind lines n := by
  rw [lastNumber_iff, ← head?_numbers_eq_some_iff decides]
  simp [List.filter_reverse, List.map_reverse]

/-- Lines of a kind are in place at the front when the first one is of the kind and no other is. -/
theorem not_misplaced_head?_iff :
    ¬Misplaced kind lines lines.head? ↔
      ∃ first rest, lines = first :: rest ∧ kind first ∧ ∀ line ∈ rest, ¬kind line := by
  constructor
  · intro inPlace
    -- There is a first line of the kind, and a second one would make two of them.
    simp only [Misplaced, not_or, not_forall, Classical.not_not, exists_prop] at inPlace
    obtain ⟨single, first, atFront, opens⟩ := inPlace
    obtain ⟨rest, rfl⟩ := List.head?_eq_some_iff.mp atFront
    refine ⟨first, rest, rfl, opens, fun line inside again => ?_⟩
    have both : [first, line].Sublist (first :: rest) :=
      (List.singleton_sublist.mpr inside).cons_cons first
    exact single ⟨first, line, both, opens, again⟩
  · rintro ⟨first, rest, rfl, opens, none⟩ (⟨line, line', both, -, again⟩ | missing)
    · -- The second of two lines is not the first one.
      exact none line' (both.tail.subset (by simp)) again
    · -- The first line is of the kind, so that it is not missing at the front.
      exact missing first rfl opens

/-- Two lines of a kind are two in whichever direction the lines are read. -/
theorem misplaced_reverse {outer : Option NumberedLine} :
    Misplaced kind lines.reverse outer ↔ Misplaced kind lines outer := by
  refine or_congr_left ⟨?_, ?_⟩
  · rintro ⟨line, line', both, first, second⟩
    exact ⟨line', line, by simpa using both.reverse, second, first⟩
  · rintro ⟨line, line', both, first, second⟩
    exact ⟨line', line, by simpa using both.reverse, second, first⟩

/-- Lines of a kind are in place at the end when the last one is of the kind and no other is. -/
theorem not_misplaced_getLast?_iff :
    ¬Misplaced kind lines lines.getLast? ↔
      ∃ rest last, lines = rest ++ [last] ∧ kind last ∧ ∀ line ∈ rest, ¬kind line := by
  -- This is the statement about the front, for the lines in reverse.
  rw [← List.head?_reverse, ← misplaced_reverse, not_misplaced_head?_iff]
  constructor
  · rintro ⟨last, rest, split, closes, none⟩
    refine ⟨rest.reverse, last, ?_, closes, by simpa using none⟩
    rw [← List.reverse_inj, split]
    simp
  · rintro ⟨rest, last, rfl, closes, none⟩
    exact ⟨last, rest.reverse, by simp, closes, by simpa using none⟩

/-- The check at the front finds whether lines of a kind are out of place there. -/
theorem misplaced_head?_iff (distinct : (lines.map (·.number)).Nodup)
    (decides : ∀ line, test line = true ↔ kind line) (occurs : ∃ line ∈ lines, kind line) :
    (decide (1 < ((lines.filter test).map (·.number)).length) ||
        ((lines.filter test).map (·.number)).head? != (lines.map (·.number)).head?) = true ↔
      Misplaced kind lines lines.head? := by
  rw [Bool.or_eq_true, decide_eq_true_iff, bne_iff_ne, Ne, one_lt_length_numbers_iff decides,
    head?_numbers_eq_iff distinct decides occurs]
  simp [Misplaced]

/-- The check at the end finds whether lines of a kind are out of place there. -/
theorem misplaced_getLast?_iff (distinct : (lines.map (·.number)).Nodup)
    (decides : ∀ line, test line = true ↔ kind line) (occurs : ∃ line ∈ lines, kind line) :
    (decide (1 < ((lines.filter test).map (·.number)).length) ||
        ((lines.filter test).map (·.number)).getLast? != (lines.map (·.number)).getLast?) = true ↔
      Misplaced kind lines lines.getLast? := by
  rw [Bool.or_eq_true, decide_eq_true_iff, bne_iff_ne, Ne, one_lt_length_numbers_iff decides,
    getLast?_numbers_eq_iff distinct decides occurs]
  simp [Misplaced]

/-- There is one number that is the first one of a kind. -/
theorem FirstNumber.iff_eq (decides : ∀ line, test line = true ↔ kind line) {n m : Nat}
    (first : FirstNumber kind lines n) : FirstNumber kind lines m ↔ n = m := by
  rw [← head?_numbers_eq_some_iff decides] at first ⊢
  rw [first, Option.some.injEq]

/-- There is one number that is the last one of a kind. -/
theorem LastNumber.iff_eq (decides : ∀ line, test line = true ↔ kind line) {n m : Nat}
    (last : LastNumber kind lines n) : LastNumber kind lines m ↔ n = m := by
  rw [lastNumber_iff] at last ⊢
  exact last.iff_eq decides

end Kind

/-- Lines are framed when neither kind of boundary is out of place. -/
theorem exists_framed_iff {lines : List NumberedLine} :
    (∃ middle, Framed middle lines) ↔ ¬BeginMisplaced lines ∧ ¬EndMisplaced lines := by
  -- Either kind is in place when its only line is at its end.
  rw [BeginMisplaced, EndMisplaced, not_misplaced_head?_iff, not_misplaced_getLast?_iff]
  constructor
  · -- Each of the two ends is of one kind only, and between them there is neither.
    rintro ⟨middle, first, last, rfl, opens, closes, neither⟩
    refine ⟨⟨first, middle ++ [last], rfl, opens, fun line inside opens' => ?_⟩,
      ⟨first :: middle, last, rfl, closes, fun line inside closes' => ?_⟩⟩
    · rcases List.mem_append.mp inside with between | atEnd
      · exact (neither line between).1 opens'
      · cases List.mem_singleton.mp atEnd
        exact opens'.not_closes closes
    · rcases List.mem_cons.mp inside with rfl | between
      · exact opens.not_closes closes'
      · exact (neither line between).2 closes'
  · rintro ⟨⟨first, rest, rfl, opens, single⟩, front, last, split, closes, single'⟩
    -- The opening line is not the closing one, and so the lines have two ends.
    rcases List.cons_eq_append_iff.mp split with ⟨rfl, alone⟩ | ⟨middle, rfl, rfl⟩
    · cases alone
      exact absurd closes opens.not_closes
    · refine ⟨middle, first, last, rfl, opens, closes, fun line inside => ⟨?_, ?_⟩⟩
      · exact single line (List.mem_append_left _ inside)
      · exact single' line (List.mem_cons_of_mem _ inside)

/-- Framed lines have both kinds of boundary. -/
theorem Framed.occur {middle lines : List NumberedLine} (framed : Framed middle lines) :
    Opened lines ∧ Closed lines := by
  obtain ⟨first, last, rfl, opens, closes, -⟩ := framed
  exact ⟨⟨first, by simp, opens⟩, ⟨last, by simp, closes⟩⟩

/-- Framed lines are two just when there is nothing between them. -/
theorem Framed.length_eq_two_iff {middle lines : List NumberedLine} (framed : Framed middle lines) :
    lines.length = 2 ↔ middle = [] := by
  obtain ⟨first, last, rfl, -⟩ := framed
  simp

/-- What the boundary check says of lines, with one case for each answer. -/
inductive Judged (lines : List NumberedLine) : Except SyntaxError Unit → Prop where
  /-- Neither kind of boundary occurs. -/
  | missingBoundaries (noBegin : ¬Opened lines) (noEnd : ¬Closed lines) :
      Judged lines (.error ⟨.missingBoundaries, none, none⟩)
  /-- Only closing lines occur. -/
  | missingBegin (noBegin : ¬Opened lines) (ends : Closed lines) :
      Judged lines (.error ⟨.missingBegin, none, none⟩)
  /-- Only opening lines occur. -/
  | missingEnd (begins : Opened lines) (noEnd : ¬Closed lines) :
      Judged lines (.error ⟨.missingEnd, none, none⟩)
  /-- Both kinds occur, and the opening lines are not one line at the front. -/
  | misplacedBegin {n : Nat} (begins : Opened lines) (ends : Closed lines)
      (misplaced : BeginMisplaced lines) (last : LastNumber NumberedLine.Opens lines n) :
      Judged lines (.error ⟨.misplacedBegin, some n, none⟩)
  /-- Both kinds occur, the opening lines are in place, and the closing lines are not one line at
  the end. -/
  | misplacedEnd {n : Nat} (begins : Opened lines) (ends : Closed lines)
      (inPlace : ¬BeginMisplaced lines) (misplaced : EndMisplaced lines)
      (first : FirstNumber NumberedLine.Closes lines n) :
      Judged lines (.error ⟨.misplacedEnd, some n, none⟩)
  /-- Both kinds are in place, and there is nothing between them. -/
  | nothingBetween (framed : Framed [] lines) : Judged lines (.error ⟨.nothingBetween, none, none⟩)
  /-- Both kinds are in place, and there is something between them. -/
  | delimited {middle : List NumberedLine} (nonempty : middle ≠ [])
      (framed : Framed middle lines) : Judged lines (.ok ())

/-- The boundary check gives one of these answers. -/
theorem checkBoundaries_judged (source : List Char) :
    Judged (activeLines source) (checkBoundaries source) := by
  have distinct := activeLines_numbers_nodup source
  unfold checkBoundaries
  generalize activeLines source = lines at distinct ⊢
  -- Each test of the check is tied to what it is a test for.
  have opens : ∀ line, isBeginLine line = true ↔ line.Opens := fun line => isBeginLine_iff
  have closes : ∀ line, isEndLine line = true ↔ line.Closes := fun line => isEndLine_iff
  have noBegin : _ ↔ ¬Opened lines := isEmpty_numbers_iff opens
  have noEnd : _ ↔ ¬Closed lines := isEmpty_numbers_iff closes
  dsimp only
  -- The tests are gone through in their order, and each one relies on those before it.
  split
  · rename_i neither
    obtain ⟨left, right⟩ := Bool.and_eq_true_iff.mp neither
    exact .missingBoundaries (noBegin.mp left) (noEnd.mp right)
  rename_i some
  split
  · -- The opening lines have not been found, so that the closing lines have.
    rename_i left
    refine .missingBegin (noBegin.mp left) (Classical.not_not.mp fun none => some ?_)
    rw [left, noEnd.mpr none]
    rfl
  rename_i left
  have begins := Classical.not_not.mp (mt noBegin.mpr left)
  split
  · rename_i right
    exact .missingEnd begins (noEnd.mp right)
  rename_i right
  have ends := Classical.not_not.mp (mt noEnd.mpr right)
  have front : _ ↔ BeginMisplaced lines := misplaced_head?_iff distinct opens begins
  have back : _ ↔ EndMisplaced lines := misplaced_getLast?_iff distinct closes ends
  split
  · rename_i misplaced
    cases found : ((lines.filter isBeginLine).map (·.number)).getLast? with
    -- Lines that have been found have a last one.
    | none => exact absurd (List.isEmpty_iff.mpr (List.getLast?_eq_none_iff.mp found)) left
    | some n =>
      have last := (getLast?_numbers_eq_some_iff opens).mp found
      exact .misplacedBegin begins ends (front.mp misplaced) last
  rename_i inPlace
  split
  · rename_i misplaced
    cases found : ((lines.filter isEndLine).map (·.number)).head? with
    -- Lines that have been found have a first one.
    | none => exact absurd (List.isEmpty_iff.mpr (List.head?_eq_none_iff.mp found)) right
    | some n =>
      have first := (head?_numbers_eq_some_iff closes).mp found
      exact .misplacedEnd begins ends (mt front.mpr inPlace) (back.mp misplaced) first
  rename_i inPlace'
  -- With both kinds in place the lines are framed, and only their number is left to be asked.
  obtain ⟨middle, framed⟩ := exists_framed_iff.mpr ⟨mt front.mpr inPlace, mt back.mpr inPlace'⟩
  split
  · rename_i two
    cases framed.length_eq_two_iff.mp (beq_iff_eq.mp two)
    exact .nothingBetween framed
  · rename_i more
    have nonempty : middle ≠ [] := fun bare =>
      more (beq_iff_eq.mpr (framed.length_eq_two_iff.mpr bare))
    exact .delimited nonempty framed

/-- The words for what can be wrong with the boundaries of a text. -/
theorem SyntaxCause.message_boundary :
    message .missingBoundaries = "Missing BEGIN CODE and END CODE" ∧
    message .missingBegin = "Missing BEGIN CODE" ∧ message .missingEnd = "Missing END CODE" ∧
    message .nothingBetween = "CODE not recognized, cannot be executed" ∧
    message .misplacedBegin = "BEGIN CODE must only be at the beginning of the program" ∧
    message .misplacedEnd = "END CODE must only be at the end of the program" :=
  ⟨rfl, rfl, rfl, rfl, rfl, rfl⟩

/-- A source text is refused with the given words, at the given line if any. -/
def Refused (source : List Char) (words : String) (place : Option Nat) : Prop :=
  ∃ error, checkBoundaries source = .error error ∧ error.cause.message = words ∧
    error.line = place

/-- The boundary check passes exactly the delimited texts. Of the lines that have something to run,
which each text has in one way, an opening line is the first, a closing line is the last, at least
one line stands between them, and there is no other boundary. Otherwise the words say what is wrong:
a kind of boundary does not occur at all, or nothing stands between the two, or the opening lines
are not one line at the front, which is said of the last of them, or only the closing lines are not
one line at the end, which is said of the first of them. -/
theorem checkBoundaries_iff (source : List Char) :
    (∃! lines, LinesToRun source lines) ∧
    ∀ lines, LinesToRun source lines →
      (checkBoundaries source = .ok () ↔ ∃ middle, middle ≠ [] ∧ Framed middle lines) ∧
      (Refused source "Missing BEGIN CODE and END CODE" none ↔ ¬Opened lines ∧ ¬Closed lines) ∧
      (Refused source "Missing BEGIN CODE" none ↔ ¬Opened lines ∧ Closed lines) ∧
      (Refused source "Missing END CODE" none ↔ Opened lines ∧ ¬Closed lines) ∧
      (Refused source "CODE not recognized, cannot be executed" none ↔ Framed [] lines) ∧
      (∀ n, Refused source "BEGIN CODE must only be at the beginning of the program" (some n) ↔
        Opened lines ∧ Closed lines ∧ BeginMisplaced lines ∧
          LastNumber NumberedLine.Opens lines n) ∧
      (∀ n, Refused source "END CODE must only be at the end of the program" (some n) ↔
        Opened lines ∧ Closed lines ∧ ¬BeginMisplaced lines ∧ EndMisplaced lines ∧
          FirstNumber NumberedLine.Closes lines n) := by
  -- There is one list of lines to run, and the check is about that.
  refine ⟨⟨_, linesToRun_iff.mpr rfl, fun lines toRun => (linesToRun_iff.mp toRun).symm⟩,
    fun lines toRun => ?_⟩
  have judged := checkBoundaries_judged source
  -- In each of the cases one answer is given, and what the others ask for is excluded.
  unfold Refused
  rw [linesToRun_iff.mp toRun] at judged
  generalize checkBoundaries source = result at judged ⊢
  have framed_iff := @exists_framed_iff lines
  cases judged with
  | missingBoundaries noBegin noEnd =>
    have unframed : ∀ middle, ¬Framed middle lines := fun middle framed => noBegin framed.occur.1
    simp [SyntaxCause.message_boundary, noBegin, noEnd, unframed]
  | missingBegin noBegin ends =>
    have unframed : ∀ middle, ¬Framed middle lines := fun middle framed => noBegin framed.occur.1
    simp [SyntaxCause.message_boundary, noBegin, ends, unframed]
  | missingEnd begins noEnd =>
    have unframed : ∀ middle, ¬Framed middle lines := fun middle framed => noEnd framed.occur.2
    simp [SyntaxCause.message_boundary, begins, noEnd, unframed]
  | misplacedBegin begins ends misplaced last =>
    have unframed : ∀ middle, ¬Framed middle lines := fun middle framed =>
      (framed_iff.mp ⟨middle, framed⟩).1 misplaced
    simp [SyntaxCause.message_boundary, begins, ends, unframed, misplaced,
      last.iff_eq fun line => isBeginLine_iff]
  | misplacedEnd begins ends inPlace misplaced first =>
    have unframed : ∀ middle, ¬Framed middle lines := fun middle framed =>
      (framed_iff.mp ⟨middle, framed⟩).2 misplaced
    simp [SyntaxCause.message_boundary, begins, ends, unframed, inPlace, misplaced,
      first.iff_eq fun line => isEndLine_iff]
  | nothingBetween framed =>
    obtain ⟨begins, ends⟩ := framed.occur
    obtain ⟨inPlace, inPlace'⟩ := framed_iff.mp ⟨_, framed⟩
    have bare : ¬∃ middle, middle ≠ [] ∧ Framed middle lines := by
      rintro ⟨middle, nonempty, framed'⟩
      exact nonempty (framed'.length_eq_two_iff.mp (framed.length_eq_two_iff.mpr rfl))
    simp [SyntaxCause.message_boundary, begins, ends, inPlace, inPlace', framed, bare]
  | delimited nonempty framed =>
    obtain ⟨begins, ends⟩ := framed.occur
    obtain ⟨inPlace, inPlace'⟩ := framed_iff.mp ⟨_, framed⟩
    have more : ¬Framed [] lines := fun bare =>
      nonempty (framed.length_eq_two_iff.mp (bare.length_eq_two_iff.mpr rfl))
    have some : ∃ middle, middle ≠ [] ∧ Framed middle lines := ⟨_, nonempty, framed⟩
    simp [begins, ends, inPlace, inPlace', more, some]

/-- A delimited text with comments, blanks and three kinds of line ends is passed. With its first
and its last line exchanged it is refused, at the line that opens the program. -/
theorem checkBoundaries_iff_greeting :
    LinesToRun "# hello\n\n\tBEGIN  CODE # go\r\n DISPLAY: 1 \r  END CODE".toList
      [⟨3, "BEGIN  CODE # go".toList⟩, ⟨4, "DISPLAY: 1".toList⟩, ⟨5, "END CODE".toList⟩] ∧
    checkBoundaries "# hello\n\n\tBEGIN  CODE # go\r\n DISPLAY: 1 \r  END CODE".toList = .ok () ∧
    Refused "  END CODE\r DISPLAY: 1 \r\n\tBEGIN  CODE # go\n\n# hello".toList
      "BEGIN CODE must only be at the beginning of the program" (some 3) := by
  -- The boundaries are short enough to be recognised by looking.
  have opens : Delimits "BEGIN".toList "BEGIN  CODE # go".toList :=
    isBoundaryLine_iff.mp (by decide +kernel)
  have closes : Delimits "END".toList "END CODE".toList :=
    isBoundaryLine_iff.mp (by decide +kernel)
  have runs : ¬Delimits "BEGIN".toList "DISPLAY: 1".toList ∧
      ¬Delimits "END".toList "DISPLAY: 1".toList :=
    ⟨mt isBoundaryLine_iff.mpr (by decide +kernel), mt isBoundaryLine_iff.mpr (by decide +kernel)⟩
  have forward : LinesToRun "# hello\n\n\tBEGIN  CODE # go\r\n DISPLAY: 1 \r  END CODE".toList
      [⟨3, "BEGIN  CODE # go".toList⟩, ⟨4, "DISPLAY: 1".toList⟩, ⟨5, "END CODE".toList⟩] :=
    linesToRun_iff.mpr rfl
  have backward : LinesToRun "  END CODE\r DISPLAY: 1 \r\n\tBEGIN  CODE # go\n\n# hello".toList
      [⟨1, "END CODE".toList⟩, ⟨2, "DISPLAY: 1".toList⟩, ⟨3, "BEGIN  CODE # go".toList⟩] :=
    linesToRun_iff.mpr rfl
  -- The theorem decides both texts, from their lines.
  obtain ⟨passed, -⟩ := (checkBoundaries_iff _).2 _ forward
  obtain ⟨-, -, -, -, -, misplaced, -⟩ := (checkBoundaries_iff _).2 _ backward
  refine ⟨forward, passed.mpr ?_, (misplaced 3).mpr ⟨?_, ?_, ?_, ?_⟩⟩
  · -- One line stands between the opening and the closing line.
    exact ⟨[_], List.cons_ne_nil _ _, _, _, rfl, opens, closes, List.forall_mem_singleton.mpr runs⟩
  · -- The last line opens the program.
    exact ⟨⟨3, _⟩, List.mem_of_getLast? rfl, opens⟩
  · -- The first line closes the program.
    exact ⟨⟨1, _⟩, List.mem_cons_self, closes⟩
  · -- The first line closes the program, and so does not open it.
    refine .inr ?_
    rintro line ⟨⟩ other
    exact other.not_closes closes
  · -- The last line is the only one that opens the program.
    exact ⟨[_, _], _, [], rfl, opens, rfl, by simp⟩

end Pseudocode
