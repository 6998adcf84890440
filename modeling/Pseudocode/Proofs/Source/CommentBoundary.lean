import Pseudocode.Proofs.Source.CommentReading
import Pseudocode.Proofs.Source.Lines

/-! A comment at the end of a line changes no boundary: the lines that open and close a program are
the same ones with it. -/

namespace Pseudocode

open Lexer (commented dropWhile_append_stop isPrefixOf_append_stop)

/-- A line is read up to the line feed that ends it. -/
theorem splitLinesFrom_line {line : List Char} (unbroken : ∀ c ∈ line, isLineEnd c = false)
    (current after : List Char) :
    splitLinesFrom current (line ++ '\n' :: after) =
      (current.reverse ++ line) :: splitLinesFrom [] after := by
  -- A text without line ends is read into one line.
  have plain : ∀ c ∈ line, c ∉ lineEnds := by
    intro c member
    rw [← isLineEnd_iff, unbroken c member]
    exact Bool.false_ne_true
  have ends : LineEnding ['\n'] after := .single (by decide) (by simp)
  rw [← List.singleton_append, splitLinesFrom_append plain, splitLinesFrom_ending ends,
    List.reverse_append, List.reverse_reverse]

/-- A comment changes one line of a text, and that line has the comment at its end. -/
theorem splitLinesFrom_commented {comment : List Char}
    (unbroken : ∀ c ∈ comment, isLineEnd c = false) {before : List Char} (unix : '\r' ∉ before)
    (current after : List Char) :
    ∃ front line,
      splitLinesFrom current (before ++ '\n' :: after) =
        front ++ line :: splitLinesFrom [] after ∧
      splitLinesFrom current (commented before comment after) =
        front ++ (line ++ ' ' :: '#' :: comment) :: splitLinesFrom [] after := by
  induction before generalizing current with
  | nil =>
    -- The comment belongs to the line that is being read.
    have whole : ∀ c ∈ ' ' :: '#' :: comment, isLineEnd c = false := by
      simpa using ⟨by decide, by decide, unbroken⟩
    refine ⟨[], current.reverse, ?_, splitLinesFrom_line whole current after⟩
    simpa using @splitLinesFrom_line [] (by simp) current after
  | cons c before ih =>
    simp only [List.mem_cons, not_or] at unix
    have plain := splitLinesFrom_cons current (before ++ '\n' :: after) (Ne.symm unix.1)
    have other := splitLinesFrom_cons current (commented before comment after) (Ne.symm unix.1)
    change ∃ front line, splitLinesFrom current (c :: (before ++ '\n' :: after)) = _ ∧
      splitLinesFrom current (c :: commented before comment after) = _
    rw [plain, other]
    -- A line that ends earlier is the same in both texts.
    cases isLineEnd c with
    | true =>
      obtain ⟨front, line, here, there⟩ := ih unix.2 []
      exact ⟨current.reverse :: front, line, by simp [here], by simp [there]⟩
    | false => exact ih unix.2 (c :: current)

/-- A word is found at the start of a text when the text goes on after it. -/
theorem afterWord?_eq_some_iff {word text rest : List Char} :
    afterWord? word text = some rest ↔ text = word ++ rest := by
  unfold afterWord?
  constructor
  · -- The word has to be at the start, and the rest follows.
    intro found
    split at found
    · rename_i starts
      obtain ⟨tail, rfl⟩ := List.isPrefixOf_iff_prefix.mp starts
      rw [List.drop_left] at found
      rw [Option.some.inj found]
    · cases found
  · rintro rfl
    rw [if_pos (List.isPrefixOf_iff_prefix.mpr (List.prefix_append word rest)), List.drop_left]

section Noted

variable {blank : Char} {gap note : List Char}

/-- Blanks are dropped from a text with a note as they are without it, and those before the note
when there is nothing else. -/
theorem dropWhile_isBlank_noted (isBlank_blank : isBlank blank = true)
    (blanks : ∀ c ∈ gap, isBlank c = true) (text : List Char) :
    (text ++ blank :: (gap ++ '#' :: note)).dropWhile isBlank =
      if text.dropWhile isBlank = [] then '#' :: note
      else text.dropWhile isBlank ++ blank :: (gap ++ '#' :: note) := by
  -- The mark of the note is no blank.
  have mark : isBlank '#' = false := by decide
  rw [List.dropWhile_append, List.dropWhile_cons_of_pos isBlank_blank,
    List.dropWhile_append_of_pos blanks, List.dropWhile_cons_of_neg (by simp [mark])]
  simp only [List.isEmpty_iff]

/-- A note adds nothing to run to what is left of a line. -/
theorem isIdleLine_noted (isBlank_blank : isBlank blank = true)
    (blanks : ∀ c ∈ gap, isBlank c = true) (text : List Char) :
    isIdleLine ((text ++ blank :: (gap ++ '#' :: note)).dropWhile isBlank) =
      isIdleLine (text.dropWhile isBlank) := by
  rw [dropWhile_isBlank_noted isBlank_blank blanks]
  -- Either the note is all that is left, or the first visible character decides.
  cases text.dropWhile isBlank with
  | nil => rfl
  | cons c rest => rfl

/-- What follows a word is the same with a note, and then the note. -/
theorem afterWord?_noted {word : List Char} (absent : blank ∉ word) (text rest : List Char) :
    afterWord? word (text ++ blank :: rest) = (afterWord? word text).map (· ++ blank :: rest) := by
  simp only [afterWord?, isPrefixOf_append_stop absent]
  split
  -- The text starts with the word, so that the note comes after it.
  · rename_i starts
    obtain ⟨tail, rfl⟩ := List.isPrefixOf_iff_prefix.mp starts
    rw [List.append_assoc, List.drop_left, List.drop_left]
    rfl
  · rfl

/-- A line with a note is a boundary when it is one without it. -/
theorem isBoundaryLine_noted (isBlank_blank : isBlank blank = true)
    (blanks : ∀ c ∈ gap, isBlank c = true) {word : List Char}
    (visible : word.all (fun c => !isBlank c) = true) (line : List Char) :
    isBoundaryLine word (line ++ blank :: (gap ++ '#' :: note)) = isBoundaryLine word line := by
  have absent : ∀ {word : List Char}, word.all (fun c => !isBlank c) = true → blank ∉ word := by
    intro word visible member
    have seen := List.all_eq_true.mp visible blank member
    simp [isBlank_blank] at seen
  -- The words of a boundary have no blanks, so that the note starts after them.
  unfold isBoundaryLine
  rw [afterWord?_noted (absent visible)]
  cases afterWord? word line with
  | none => rfl
  | some rest =>
    simp only [Option.map_some]
    rw [dropWhile_isBlank_noted isBlank_blank blanks]
    cases dropped : rest.dropWhile isBlank with
    | nil =>
      -- Only the note follows the word, and it is no word.
      rfl
    | cons c tail =>
      -- Something follows the word, so that there was a rest.
      have nonempty : rest ≠ [] := by
        rintro rfl
        cases dropped
      have head : (rest ++ blank :: (gap ++ '#' :: note)).head? = rest.head? := by
        cases rest with
        | nil => exact absurd rfl nonempty
        | cons d rest => rfl
      rw [if_neg (List.cons_ne_nil c tail), afterWord?_noted (absent (by decide))]
      cases afterWord? "CODE".toList (c :: tail) with
      | none => rfl
      | some after =>
        simp only [Option.map_some]
        rw [head, isIdleLine_noted isBlank_blank blanks]

end Noted

/-- A note ends a text without its outer blanks: only the blanks at its own end are dropped. -/
theorem trimEnd_noted (text note : List Char) :
    trimEnd (text ++ '#' :: note) = text ++ '#' :: trimEnd note := by
  have mark : isBlank '#' = false := by decide
  -- Dropping from the end stops at the mark.
  simp [trimEnd, dropWhile_append_stop mark]

/-- A text with a blank after it is what the text is without the blanks at its end, and at least one
blank. -/
theorem exists_trimEnd_append (text : List Char) :
    ∃ blank gap, text ++ [' '] = trimEnd text ++ blank :: gap ∧
      isBlank blank = true ∧ ∀ c ∈ gap, isBlank c = true := by
  -- What is dropped at the end are blanks.
  have split : text = trimEnd text ++ (text.reverse.takeWhile isBlank).reverse := by
    rw [trimEnd, ← List.reverse_append, List.takeWhile_append_dropWhile, List.reverse_reverse]
  have blanks : ∀ c ∈ (text.reverse.takeWhile isBlank).reverse, isBlank c = true := by
    intro c member
    exact List.all_eq_true.mp List.all_takeWhile c (List.mem_reverse.mp member)
  have space : isBlank ' ' = true := by decide
  generalize (text.reverse.takeWhile isBlank).reverse = gap at split blanks
  cases gap with
  -- There are no blanks at the end, so that the one that is added is the first.
  | nil => exact ⟨' ', [], by rw [← List.append_nil (trimEnd text), ← split], space, by simp⟩
  | cons blank gap =>
    refine ⟨blank, gap ++ [' '], ?_, blanks blank List.mem_cons_self, ?_⟩
    · rw [← List.cons_append, ← List.append_assoc, ← split]
    · intro c member
      rcases List.mem_append.mp member with inside | last
      · exact blanks c (List.mem_cons_of_mem _ inside)
      · exact List.mem_singleton.mp last ▸ space

/-- What starts with something visible still does so without the blanks at its end. -/
theorem head?_trimEnd {c : Char} (visible : isBlank c = false) (rest : List Char) :
    (trimEnd (c :: rest)).head? = some c := by
  obtain ⟨blank, gap, split, isBlank_blank, -⟩ := exists_trimEnd_append (c :: rest)
  cases kept : trimEnd (c :: rest) with
  -- Something is left, as the first character is no blank.
  | nil =>
    rw [kept] at split
    obtain ⟨rfl, -⟩ := List.cons.inj split
    rw [isBlank_blank] at visible
    cases visible
  | cons d tail =>
    rw [kept] at split
    obtain ⟨rfl, -⟩ := List.cons.inj split
    rfl

/-- Whether a text has nothing to run is decided by its first character. -/
theorem isIdleLine_eq (line : List Char) :
    isIdleLine line = (line.head?.map (· == '#')).getD true := by
  -- An empty text has no first character.
  cases line with
  | nil => rfl
  | cons c rest => simp [isIdleLine]

/-- A comment at the end of a line keeps what the line is: both have nothing to run, or both have
something to run and are the same boundary, if any. -/
theorem trim_commented (line comment : List Char) :
    isIdleLine (trim line) = true ∧ isIdleLine (trim (line ++ ' ' :: '#' :: comment)) = true ∨
    isIdleLine (trim line) = isIdleLine (trim (line ++ ' ' :: '#' :: comment)) ∧
      ∀ {word : List Char}, word.all (fun c => !isBlank c) = true →
        isBoundaryLine word (trim line) =
          isBoundaryLine word (trim (line ++ ' ' :: '#' :: comment)) := by
  have whole : (line ++ ' ' :: '#' :: comment).dropWhile isBlank =
      if line.dropWhile isBlank = [] then '#' :: comment
      else line.dropWhile isBlank ++ ' ' :: '#' :: comment :=
    @dropWhile_isBlank_noted ' ' [] comment (by decide) (by simp) line
  unfold trim
  cases dropped : line.dropWhile isBlank with
  | nil =>
    -- The comment is all that there is on the line.
    left
    rw [whole, dropped, if_pos rfl]
    exact ⟨rfl, congrArg isIdleLine (trimEnd_noted [] comment)⟩
  | cons c rest =>
    right
    have visible : isBlank c = false := by
      have first := List.head?_dropWhile_not isBlank line
      simpa [dropped] using first
    -- The blanks at the end of the line now stand between it and the comment.
    obtain ⟨blank, gap, split, isBlank_blank, blanks⟩ := exists_trimEnd_append (c :: rest)
    have kept : trimEnd (c :: rest ++ ' ' :: '#' :: comment) =
        trimEnd (c :: rest) ++ blank :: (gap ++ '#' :: trimEnd comment) := by
      have apart : c :: rest ++ ' ' :: '#' :: comment = (c :: rest ++ [' ']) ++ '#' :: comment := by
        simp
      rw [apart, trimEnd_noted, split, List.append_assoc, List.cons_append]
    rw [whole, dropped, if_neg (List.cons_ne_nil c rest), kept]
    refine ⟨?_, fun nonblank => (isBoundaryLine_noted isBlank_blank blanks nonblank _).symm⟩
    rw [isIdleLine_eq, isIdleLine_eq, List.head?_append, head?_trimEnd visible, Option.some_or]

/-- What the boundary check asks of a line: its number, and whether it opens or closes a program. -/
def NumberedLine.role (line : NumberedLine) : Nat × Bool × Bool :=
  (line.number, isBeginLine line, isEndLine line)

/-- The boundary check asks nothing else. -/
theorem checkBoundaries_congr {source source' : List Char}
    (same : (activeLines source).map NumberedLine.role =
      (activeLines source').map NumberedLine.role) :
    checkBoundaries source = checkBoundaries source' := by
  have numbers : (activeLines source).map (·.number) = (activeLines source').map (·.number) := by
    simpa [Function.comp_def, NumberedLine.role] using congrArg (List.map (·.1)) same
  have begins : ((activeLines source).filter isBeginLine).map (·.number) =
      ((activeLines source').filter isBeginLine).map (·.number) := by
    have chosen := congrArg (fun roles => (roles.filter (·.2.1)).map (·.1)) same
    simpa [List.filter_map, Function.comp_def, NumberedLine.role] using chosen
  have ends : ((activeLines source).filter isEndLine).map (·.number) =
      ((activeLines source').filter isEndLine).map (·.number) := by
    have chosen := congrArg (fun roles => (roles.filter (·.2.2)).map (·.1)) same
    simpa [List.filter_map, Function.comp_def, NumberedLine.role] using chosen
  have count : (activeLines source).length = (activeLines source').length := by
    simpa using congrArg List.length same
  -- The outcome is computed from these four alone.
  simp only [checkBoundaries, numbers, begins, ends, count]

/-- A comment at the end of a line leaves the outcome of the boundary check as it is. -/
theorem checkBoundaries_commented {comment : List Char}
    (unbroken : ∀ c ∈ comment, isLineEnd c = false) {before : List Char} (unix : '\r' ∉ before)
    (after : List Char) :
    checkBoundaries (before ++ '\n' :: after) =
      checkBoundaries (commented before comment after) := by
  obtain ⟨front, line, plain, other⟩ := splitLinesFrom_commented unbroken unix [] after
  apply checkBoundaries_congr
  -- Every other line stands in both texts, with the same number.
  simp only [activeLines, splitLines, plain, other, List.zipIdx_append, List.zipIdx_cons,
    List.map_append, List.map_cons, List.filter_append, List.filter_cons]
  rcases trim_commented line comment with ⟨idle, idle'⟩ | ⟨idle, boundary⟩
  · simp only [idle, idle', Bool.not_true, Bool.false_eq_true, if_false]
  · have opens := @boundary "BEGIN".toList (by decide)
    have closes := @boundary "END".toList (by decide)
    rw [idle]
    split
    · simp only [List.map_cons, NumberedLine.role, isBeginLine, isEndLine, opens, closes]
    · rfl

end Pseudocode
