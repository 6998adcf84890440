import Pseudocode.Proofs.Source.CommentBoundary
import Pseudocode.Proofs.Source.Spacing

/-! A spelled program between its boundary lines: no line of it is taken for one of them, so that
the boundary check has nothing to say. -/

namespace Pseudocode

open Lexer

/-- The first line of a text. -/
def firstLine (text : List Char) : List Char :=
  text.takeWhile (· != '\n')

/-- The texts that start after a line feed of a text. -/
def laterLines : List Char → List (List Char)
  | [] => []
  | c :: rest => if c = '\n' then rest :: laterLines rest else laterLines rest

/-- A text with no line ends but line feeds has the lines that start after them. -/
theorem splitLinesFrom_feeds {inner : List Char}
    (feeds : ∀ c ∈ inner, isLineEnd c = true → c = '\n') (current after : List Char) :
    splitLinesFrom current (inner ++ '\n' :: after) =
      (current.reverse ++ firstLine inner) ::
        ((laterLines inner).map firstLine ++ splitLinesFrom [] after) := by
  -- The current line is kept in reverse, and each line feed starts a new one.
  induction inner generalizing current with
  -- Nothing is left of the inner text, and the line feed ends the current line.
  | nil => simpa [firstLine, laterLines] using @splitLinesFrom_line [] (by simp) current after
  | cons c inner ih =>
    have later := ih fun d member => feeds d (List.mem_cons_of_mem _ member)
    have feed := feeds c List.mem_cons_self
    by_cases newline : c = '\n'
    · subst newline
      -- A line feed ends the current line, and the next one starts empty.
      rw [List.cons_append, splitLinesFrom_cons _ _ (by decide), if_pos (by decide), later]
      simp [firstLine, laterLines]
    · -- Any other character is read into the current line.
      have unix : c ≠ '\r' := by
        rintro rfl
        exact newline (feed rfl)
      have inside : isLineEnd c = false := by
        rw [Bool.eq_false_iff]
        exact mt feed newline
      rw [List.cons_append, splitLinesFrom_cons _ _ unix, inside, if_neg Bool.false_ne_true, later]
      simp [firstLine, laterLines, newline]

/-- The lines of two texts side by side: those of the first go on into the second. -/
theorem laterLines_append (front back : List Char) :
    laterLines (front ++ back) = (laterLines front).map (· ++ back) ++ laterLines back := by
  induction front with
  | nil => rfl
  | cons c front ih =>
    -- A line that starts in the first text goes on into the second.
    simp only [List.cons_append, laterLines, ih]
    split <;> rfl

/-- A text without line feeds has one line. -/
theorem laterLines_eq_nil {text : List Char} (line : '\n' ∉ text) : laterLines text = [] := by
  induction text with
  | nil => rfl
  | cons c text ih =>
    rw [List.mem_cons, not_or] at line
    simp [laterLines, Ne.symm line.1, ih line.2]

/-- What starts after a line feed has only characters of the text. -/
theorem subset_of_mem_laterLines {text start : List Char} (member : start ∈ laterLines text) :
    start ⊆ text := by
  induction text with
  | nil => cases member
  | cons c text ih =>
    rw [laterLines] at member
    split at member
    · -- A line starts here, or further on.
      rcases List.mem_cons.mp member with rfl | further
      · exact List.subset_cons_self c _
      · exact List.subset_cons_of_subset c (ih further)
    · exact List.subset_cons_of_subset c (ih member)

/-- The lines that have something to run, counted from a number. -/
def activeFrom (number : Nat) (lines : List (List Char)) : List NumberedLine :=
  ((lines.zipIdx number).map fun (line, number) => ⟨number, trim line⟩).filter
    fun line => !isIdleLine line.text

/-- Counting goes on from one line to the next. -/
theorem activeFrom_append (number : Nat) (front back : List (List Char)) :
    activeFrom number (front ++ back) =
      activeFrom number front ++ activeFrom (number + front.length) back := by
  simp [activeFrom, List.zipIdx_append]

/-- A line that has something to run is one of the lines. -/
theorem exists_mem_of_mem_activeFrom {number : Nat} {lines : List (List Char)} {line : NumberedLine}
    (member : line ∈ activeFrom number lines) : ∃ text ∈ lines, line.text = trim text := by
  obtain ⟨inside, -⟩ := List.mem_filter.mp member
  obtain ⟨⟨text, position⟩, numbered, rfl⟩ := List.mem_map.mp inside
  exact ⟨text, List.fst_mem_of_mem_zipIdx numbered, rfl⟩

/-- There is a line to run when one of the lines has something to run. -/
theorem activeFrom_ne_nil {number : Nat} {lines : List (List Char)} {text : List Char}
    (member : text ∈ lines) (active : isIdleLine (trim text) = false) :
    activeFrom number lines ≠ [] := by
  obtain ⟨position, found⟩ := List.mem_iff_getElem?.mp member
  have numbered : (text, number + position) ∈ lines.zipIdx number := by
    rw [List.mem_zipIdx_iff_le_and_getElem?_sub]
    exact ⟨Nat.le_add_right _ _, by simpa using found⟩
  have line : (⟨number + position, trim text⟩ : NumberedLine) ∈ activeFrom number lines :=
    List.mem_filter.mpr ⟨List.mem_map.mpr ⟨_, numbered, rfl⟩, by simp [active]⟩
  exact List.ne_nil_of_mem line

/-- The boundary check passes when the first line opens the program, the last one closes it, no line
between them does either, and one of these has something to run. -/
theorem checkBoundaries_of_lines {source : List Char} {lines : List (List Char)}
    (split : splitLines source = ["BEGIN CODE".toList] ++ (lines ++ ["END CODE".toList]))
    (neither : ∀ line ∈ lines, isBoundaryLine "BEGIN".toList (trim line) = false ∧
      isBoundaryLine "END".toList (trim line) = false)
    (active : ∃ line ∈ lines, isIdleLine (trim line) = false) :
    checkBoundaries source = .ok () := by
  let opening : NumberedLine := ⟨1, "BEGIN CODE".toList⟩
  let closing : NumberedLine := ⟨2 + lines.length, "END CODE".toList⟩
  have whole : activeLines source = [opening] ++ (activeFrom 2 lines ++ [closing]) := by
    change activeFrom 1 (splitLines source) = _
    rw [split, activeFrom_append, activeFrom_append]
    rfl
  -- What is between the two lines is no boundary, and one line of it has something to run.
  have opens : (activeFrom 2 lines).filter isBeginLine = [] := by
    rw [List.filter_eq_nil_iff]
    intro line member
    obtain ⟨text, inside, same⟩ := exists_mem_of_mem_activeFrom member
    rw [isBeginLine, same, (neither text inside).1]
    exact Bool.false_ne_true
  have closes : (activeFrom 2 lines).filter isEndLine = [] := by
    rw [List.filter_eq_nil_iff]
    intro line member
    obtain ⟨text, inside, same⟩ := exists_mem_of_mem_activeFrom member
    rw [isEndLine, same, (neither text inside).2]
    exact Bool.false_ne_true
  have count : (activeFrom 2 lines).length ≠ 0 := by
    obtain ⟨text, inside, runs⟩ := active
    simpa using activeFrom_ne_nil inside runs
  -- Of all lines, only the first opens the program and only the last closes it.
  have begins : (activeLines source).filter isBeginLine = [opening] := by
    rw [whole, List.filter_append, List.filter_append, opens]
    rfl
  have ends : (activeLines source).filter isEndLine = [closing] := by
    rw [whole, List.filter_append, List.filter_append, closes]
    rfl
  have more : (activeLines source).length ≠ 2 := by
    rw [whole]
    simpa using count
  -- The two lines are the first and the last one.
  have first : ((activeLines source).map (·.number)).head? = some opening.number := by
    rw [whole]
    rfl
  have last : ((activeLines source).map (·.number)).getLast? = some closing.number := by
    rw [whole, ← List.append_assoc, List.map_append]
    exact List.getLast?_concat
  simp [checkBoundaries, begins, ends, more, first, last]

/-- The first word of a line. -/
def lineWord (line : List Char) : List Char :=
  (line.dropWhile isBlank).takeWhile isNameChar

/-- What follows the first word of a line. -/
def afterLineWord (line : List Char) : List Char :=
  (line.dropWhile isBlank).dropWhile isNameChar

/-- No blank is part of a name. -/
theorem isNameChar_of_isBlank {c : Char} (blank : isBlank c = true) : isNameChar c = false := by
  rw [Bool.eq_false_iff]
  intro named
  have visible := isVisible_of_isNameChar named
  simp [isVisible, blank] at visible

/-- The first two words of a boundary line are the given one and `CODE`. -/
theorem lineWord_of_isBoundaryLine {word line : List Char} (plain : word.all isNameChar = true)
    (boundary : isBoundaryLine word (trim line) = true) :
    lineWord line = word ∧ lineWord (afterLineWord line) = "CODE".toList := by
  have space : isNameChar ' ' = false := by decide
  unfold isBoundaryLine at boundary
  split at boundary
  · cases boundary
  · rename_i rest found
    split at boundary
    · cases boundary
    · rename_i after found'
      obtain ⟨head, idle⟩ := Bool.and_eq_true_iff.mp boundary
      have trimmed := afterWord?_eq_some_iff.mp found
      have code := afterWord?_eq_some_iff.mp found'
      -- A blank after the line keeps its words, and so do the blanks that were dropped there.
      obtain ⟨blank, gap, split, isBlank_blank, -⟩ := exists_trimEnd_append (line.dropWhile isBlank)
      rw [← trim, trimmed, List.append_assoc] at split
      have stop : (rest ++ blank :: gap).head?.all (fun c => !isNameChar c) = true := by
        cases rest with
        | nil => cases head
        | cons c rest => simpa using isNameChar_of_isBlank head
      have left : afterLineWord line ++ [' '] = rest ++ blank :: gap := by
        rw [afterLineWord, ← dropWhile_append_stop space, split, dropWhile_append_rest plain stop]
      refine ⟨?_, ?_⟩
      · rw [lineWord, ← takeWhile_append_stop space _ [], split, takeWhile_append_rest plain stop]
      · have code' : (rest ++ blank :: gap).dropWhile isBlank =
            "CODE".toList ++ (after ++ blank :: gap) := by
          rw [List.dropWhile_append, code]
          rfl
        have stop' : (after ++ blank :: gap).head?.all (fun c => !isNameChar c) = true := by
          cases after with
          | nil => simpa using isNameChar_of_isBlank isBlank_blank
          | cons c after =>
            -- After the word comes a blank or a comment.
            cases seen : isBlank c with
            | true => simpa using isNameChar_of_isBlank seen
            | false =>
              rw [List.dropWhile_cons_of_neg (by simp [seen]), isIdleLine_eq] at idle
              obtain rfl : c = '#' := by simpa using idle
              rfl
        rw [← left, List.dropWhile_append] at code'
        split at code'
        · cases code'
        · rw [lineWord, ← takeWhile_append_stop space _ [], code']
          exact takeWhile_append_rest (by decide) stop'

/-- Layout before a line keeps its first word, or leaves it without one. -/
theorem lineWord_spacing {gap : List Char} (spacing : gap.all isSpacing = true) (text : List Char) :
    (firstLine (gap ++ text)).dropWhile isBlank = (firstLine text).dropWhile isBlank ∨
      lineWord (firstLine (gap ++ text)) = [] := by
  induction gap with
  | nil => exact .inl rfl
  | cons c gap ih =>
    rw [List.all_cons, Bool.and_eq_true] at spacing
    -- Blanks are dropped, a line feed ends the line, and a semicolon is no word.
    rcases eq_of_isSpacing spacing.1 with rfl | rfl | rfl | rfl
    · exact ih spacing.2
    · exact ih spacing.2
    · exact .inr rfl
    · exact .inr rfl

/-- The characters of a text that has been tested are no line ends. -/
theorem isLineEnd_of_all {text : List Char} (line : text.all (fun c => !isLineEnd c) = true) :
    ∀ c ∈ text, isLineEnd c = false := by
  simpa using line

/-- A token is written without line ends. -/
theorem Token.isLineEnd_chars {token : Token} (writable : token.Writable) :
    ∀ c ∈ token.chars, isLineEnd c = false := by
  -- The characters of names are digits, letters and underscores, none of which ends a line.
  have named : ∀ {c : Char}, isNameChar c = true → isLineEnd c = false := by
    intro c named
    have bounds := toNat_of_isNameChar named
    simp only [isLineEnd, Bool.or_eq_false_iff, Bool.and_eq_false_iff, decide_eq_false_iff_not,
      beq_eq_false_iff_ne]
    omega
  have number : ∀ {digits : List Char}, IsNumeral digits → ∀ c ∈ digits, isLineEnd c = false :=
    fun numeral c member =>
      named (isNameChar_of_isDigit (List.all_eq_true.mp numeral.digits c member))
  have plain : ∀ {word : List Char}, word.all isNameChar = true → ∀ c ∈ word, isLineEnd c = false :=
    fun plain c member => named (List.all_eq_true.mp plain c member)
  -- An enclosed token has no line ends if neither the marks around it nor its content has any.
  have enclosed : ∀ {opening closing : Char} {content : List Char}, isLineEnd opening = false →
      isLineEnd closing = false → (∀ c ∈ content, isLineEnd c = false) →
      ∀ c ∈ opening :: (content ++ [closing]), isLineEnd c = false := by
    intro opening closing content first last inside c member
    simp only [List.mem_cons, List.mem_append, List.not_mem_nil, or_false] at member
    rcases member with rfl | member | rfl
    · exact first
    · exact inside c member
    · exact last
  cases token with
  | keyword keyword => exact plain (keyword_spelling_plain keyword)
  | name spelling => exact plain writable.plain
  | integer digits => exact number writable
  | decimal digits =>
    obtain ⟨whole, fraction, rfl, first, second⟩ := writable
    simp only [Token.chars, List.mem_append, List.mem_cons]
    rintro c (inside | rfl | inside)
    · exact number first c inside
    · rfl
    · exact number second c inside
  | character c =>
    simpa [Token.chars, isLineEnd] using (writable c List.mem_cons_self).2
  | quotation content => exact enclosed rfl rfl fun c member => (writable c member).2
  | bracketed content =>
    rcases writable with rfl | unbroken
    · exact isLineEnd_of_all (by decide)
    · exact enclosed rfl rfl fun c member => (unbroken c member).2
  | compare op => cases op <;> exact isLineEnd_of_all (by decide)
  | scale op => rcases writable with rfl | rfl | rfl <;> exact isLineEnd_of_all (by decide)
  | separator => exact absurd writable not_false
  | _ => exact isLineEnd_of_all (by decide)

/-- A token has no line feed. -/
theorem Token.newline_notMem_chars {token : Token} (writable : token.Writable) :
    '\n' ∉ token.chars := by
  intro member
  exact absurd (token.isLineEnd_chars writable '\n' member) (by decide)

/-- Of the characters of layout, only the line feed ends a line. -/
theorem eq_newline_of_isSpacing {c : Char} (spacing : isSpacing c = true)
    (ends : isLineEnd c = true) : c = '\n' := by
  rcases eq_of_isSpacing spacing with rfl | rfl | rfl | rfl
  · cases ends
  · cases ends
  · rfl
  · cases ends

/-- What spells some tokens has no line ends but line feeds. -/
theorem Spells.feeds {tokens : List Token} {text : List Char} (spells : Spells tokens text) :
    ∀ c ∈ text, isLineEnd c = true → c = '\n' := by
  have never : ∀ {token : Token}, token.Writable →
      ∀ c ∈ token.chars, isLineEnd c = true → c = '\n' := by
    intro token writable c member ends
    rw [token.isLineEnd_chars writable c member] at ends
    cases ends
  -- Only what is between the tokens can have line feeds.
  induction spells with
  | last writable => exact never writable
  | next writable _ between _ ih =>
    intro c member ends
    rcases List.mem_append.mp member with inside | inside
    · exact never writable c inside ends
    · rcases List.mem_append.mp inside with inside | inside
      · exact eq_newline_of_isSpacing (List.all_eq_true.mp between.spacing c inside) ends
      · exact ih c inside ends

section Lines

variable {token : Token} {tokens : List Token} {gap text tail rest : List Char}

/-- A line that starts with a keyword starts with the token, and goes on after it. -/
theorem lineWord_chars (writable : token.Writable) (stops : rest.head?.all token.stops = true)
    (spacing : gap.all isSpacing = true) {keyword : Keyword}
    (word : lineWord (firstLine (gap ++ (token.chars ++ rest))) = keyword.spelling.toList) :
    token = .keyword keyword ∧
      afterLineWord (firstLine (gap ++ (token.chars ++ rest))) = firstLine rest := by
  have line : firstLine (token.chars ++ rest) = token.chars ++ firstLine rest := by
    apply List.takeWhile_append_of_pos
    intro c member
    have other : c ≠ '\n' := fun same => token.newline_notMem_chars writable (same ▸ member)
    simpa using other
  have stops' : (firstLine rest).head?.all token.stops = true := by
    cases rest with
    | nil => rfl
    | cons c rest =>
      rw [firstLine, List.takeWhile_cons]
      split
      · exact stops
      · rfl
  -- The token starts with something visible, so that no blanks are dropped there.
  have first : (token.chars ++ firstLine rest).dropWhile isBlank =
      token.chars ++ firstLine rest := by
    obtain ⟨c, more, written, seen, -⟩ := token.chars_starts writable
    have visible : isBlank c = false := by simp_all [isVisible]
    rw [written, List.cons_append, List.dropWhile_cons_of_neg (by simp [visible])]
  rcases lineWord_spacing spacing (token.chars ++ rest) with same | wordless
  · -- The word is that of the token.
    rw [lineWord, same, line, first] at word
    obtain rfl := (takeWhile_isNameChar_chars writable stops' keyword).mp word
    refine ⟨rfl, ?_⟩
    rw [afterLineWord, same, line, first]
    exact dropWhile_append_rest (keyword_spelling_plain keyword)
      (head?_all_not_isNameChar rfl stops')
  · -- Without a word the line does not start with the keyword.
    rw [wordless] at word
    have letters := keyword_spelling_starts keyword
    rw [← word] at letters
    cases letters

/-- Layout alone has no words. -/
theorem lineWord_firstLine_spacing (spacing : gap.all isSpacing = true) :
    lineWord (firstLine gap) = [] := by
  rcases lineWord_spacing spacing [] with same | wordless
  · rw [List.append_nil] at same
    rw [lineWord, same]
    rfl
  · rwa [List.append_nil] at wordless

/-- A token that stops at a text stops there too when layout follows the text. -/
theorem head?_all_stops_append (stops : rest.head?.all token.stops = true)
    (behind : tail.all isSpacing = true) : (rest ++ tail).head?.all token.stops = true := by
  cases rest with
  | cons c rest => exact stops
  | nil =>
    cases tail with
    | nil => rfl
    | cons c tail =>
      rw [List.all_cons, Bool.and_eq_true] at behind
      exact token.stops_of_isSpacing behind.1

/-- The line that tokens start on is no boundary, when the word `CODE` is not among them. -/
theorem Spells.isBoundaryLine_firstLine (spells : Spells tokens text)
    (free : .keyword .code ∉ tokens) (before : gap.all isSpacing = true)
    (behind : tail.all isSpacing = true) (keyword : Keyword) :
    isBoundaryLine keyword.spelling.toList (trim (firstLine (gap ++ (text ++ tail)))) = false := by
  rw [Bool.eq_false_iff]
  intro boundary
  obtain ⟨first, second⟩ := lineWord_of_isBoundaryLine (keyword_spelling_plain keyword) boundary
  cases spells with
  | @last token writable =>
    -- Only layout follows the word.
    have stops : tail.head?.all token.stops = true :=
      @head?_all_stops_append token tail [] rfl behind
    obtain ⟨-, after⟩ := lineWord_chars writable stops before first
    rw [after, lineWord_firstLine_spacing behind] at second
    cases second
  -- The line goes on with the next token, or ends before it.
  | next writable stops between more =>
    obtain ⟨writable', rest, rfl, stops'⟩ := more.starts
    rw [List.append_assoc] at first second
    obtain ⟨-, after⟩ := lineWord_chars writable (head?_all_stops_append stops behind) before first
    rw [after, List.append_assoc, List.append_assoc] at second
    -- The word after it is that of the next token.
    have code : lineWord _ = Keyword.code.spelling.toList := second
    obtain ⟨rfl, -⟩ := lineWord_chars writable' (head?_all_stops_append stops' behind)
      between.spacing code
    simp at free

/-- A line of a text that goes on from layout starts in the layout, or later. -/
theorem mem_lines_append {start : List Char}
    (member : start ∈ (gap ++ text) :: laterLines (gap ++ text)) :
    (∃ part, part ⊆ gap ∧ start = part ++ text) ∨ start ∈ laterLines text := by
  rcases List.mem_cons.mp member with rfl | further
  · exact .inl ⟨gap, List.Subset.refl gap, rfl⟩
  · rw [laterLines_append, List.mem_append, List.mem_map] at further
    rcases further with ⟨part, inside, rfl⟩ | later
    · exact .inl ⟨part, subset_of_mem_laterLines inside, rfl⟩
    · exact .inr later

/-- No line of spelled tokens is a boundary, when the word `CODE` is not among them. -/
theorem Spells.isBoundaryLine_lines (spells : Spells tokens text)
    (free : .keyword .code ∉ tokens) (before : gap.all isSpacing = true)
    (behind : tail.all isSpacing = true) (keyword : Keyword) :
    ∀ start ∈ (gap ++ (text ++ tail)) :: laterLines (gap ++ (text ++ tail)),
      isBoundaryLine keyword.spelling.toList (trim (firstLine start)) = false := by
  have spaced : ∀ {part gap : List Char}, gap.all isSpacing = true → part ⊆ gap →
      part.all isSpacing = true :=
    fun whole subset =>
      List.all_eq_true.mpr fun c member => List.all_eq_true.mp whole c (subset member)
  -- The text is gone through token by token. A line starts in the layout before a token, or after
  -- it.
  induction spells generalizing gap with
  | @last token writable =>
    intro start member
    rcases mem_lines_append member with ⟨part, subset, rfl⟩ | later
    · exact (Spells.last writable).isBoundaryLine_firstLine free (spaced before subset) behind
        keyword
    · -- What follows the token is layout.
      rw [laterLines_append, laterLines_eq_nil (token.newline_notMem_chars writable), List.map_nil,
        List.nil_append] at later
      have wordless := lineWord_firstLine_spacing (spaced behind (subset_of_mem_laterLines later))
      rw [Bool.eq_false_iff]
      intro boundary
      obtain ⟨word, -⟩ := lineWord_of_isBoundaryLine (keyword_spelling_plain keyword) boundary
      have letters := keyword_spelling_starts keyword
      rw [← word, wordless] at letters
      cases letters
  | @next token after marks tokens between text writable stops gap' more ih =>
    intro start member
    rcases mem_lines_append member with ⟨part, subset, rfl⟩ | later
    · exact (Spells.next writable stops gap' more).isBoundaryLine_firstLine free
        (spaced before subset) behind keyword
    · rw [List.append_assoc, laterLines_append,
        laterLines_eq_nil (token.newline_notMem_chars writable), List.map_nil, List.nil_append,
        List.append_assoc] at later
      refine ih (fun inside => free ?_) gap'.spacing start (List.mem_cons_of_mem _ later)
      exact List.mem_cons_of_mem _ (List.mem_append_right _ inside)

/-- A text with layout before it has a line on which the text starts. -/
theorem exists_mem_lines (spacing : gap.all isSpacing = true) (text : List Char) :
    ∃ part, part.all isSpacing = true ∧ '\n' ∉ part ∧
      part ++ text ∈ (gap ++ text) :: laterLines (gap ++ text) := by
  -- The last line feed of the layout is looked for.
  induction gap with
  | nil => exact ⟨[], rfl, List.not_mem_nil, List.mem_cons_self⟩
  | cons c gap ih =>
    rw [List.all_cons, Bool.and_eq_true] at spacing
    obtain ⟨part, spaced, line, member⟩ := ih spacing.2
    by_cases feed : c = '\n'
    · refine ⟨part, spaced, line, List.mem_cons_of_mem _ ?_⟩
      -- A later line of the layout is the one that is looked for.
      rwa [List.cons_append, laterLines, if_pos feed]
    · -- The line is found in what is left of the layout, and the character may belong to it.
      rcases List.mem_cons.mp member with same | later
      · refine ⟨c :: part, ?_, ?_, ?_⟩
        · rw [List.all_cons, spacing.1, spaced]
          rfl
        · simpa using ⟨Ne.symm feed, line⟩
        · rw [List.cons_append, List.cons_append, same]
          exact List.mem_cons_self
      · refine ⟨part, spaced, line, List.mem_cons_of_mem _ ?_⟩
        rwa [List.cons_append, laterLines, if_neg feed]

/-- A line on which a token starts has something to run. -/
theorem isIdleLine_firstLine {c : Char} (spacing : gap.all isSpacing = true) (line : '\n' ∉ gap)
    (seen : isVisible c = true) : isIdleLine (trim (firstLine (gap ++ c :: text))) = false := by
  simp only [isVisible, Bool.and_eq_true, Bool.not_eq_true', bne_iff_ne, ne_eq] at seen
  have feed : c ≠ '\n' := by
    rintro rfl
    exact absurd seen.1.1 (by decide)
  -- The first character that is no blank is that of the token, or a semicolon before it.
  have runs : ∃ d rest, (firstLine (gap ++ c :: text)).dropWhile isBlank = d :: rest ∧
      isBlank d = false ∧ d ≠ '#' := by
    induction gap with
    | nil => exact ⟨c, firstLine text, by simp [firstLine, feed, seen.1.1], seen.1.1, seen.2⟩
    | cons d gap ih =>
      rw [List.all_cons, Bool.and_eq_true] at spacing
      rw [List.mem_cons, not_or] at line
      rcases eq_of_isSpacing spacing.1 with rfl | rfl | rfl | rfl
      · exact ih spacing.2 line.2
      · exact ih spacing.2 line.2
      · exact absurd rfl line.1
      · exact ⟨';', firstLine (gap ++ c :: text), rfl, rfl, by decide⟩
  obtain ⟨d, rest, dropped, visible, other⟩ := runs
  rw [trim, dropped, isIdleLine_eq, head?_trimEnd visible]
  simpa using other

/-- Source text with its boundary lines around a program. -/
def framed (inner : List Char) : List Char :=
  "BEGIN CODE".toList ++ '\n' :: (inner ++ '\n' :: "END CODE".toList)

/-- Spelled tokens between boundary lines pass the boundary check, when the word `CODE` is not among
them. -/
theorem Spells.checkBoundaries_framed (spells : Spells (token :: tokens) text)
    (free : .keyword .code ∉ token :: tokens) (before : gap.all isSpacing = true)
    (behind : tail.all isSpacing = true) :
    checkBoundaries (framed (gap ++ (text ++ tail))) = .ok () := by
  have feeds : ∀ c ∈ gap ++ (text ++ tail), isLineEnd c = true → c = '\n' := by
    intro c member ends
    rcases List.mem_append.mp member with inside | member
    · exact eq_newline_of_isSpacing (List.all_eq_true.mp before c inside) ends
    · rcases List.mem_append.mp member with inside | inside
      · exact spells.feeds c inside ends
      · exact eq_newline_of_isSpacing (List.all_eq_true.mp behind c inside) ends
  have split : splitLines (framed (gap ++ (text ++ tail))) = ["BEGIN CODE".toList] ++
      (((gap ++ (text ++ tail)) :: laterLines (gap ++ (text ++ tail))).map firstLine ++
        ["END CODE".toList]) := by
    have opening : ∀ c ∈ "BEGIN CODE".toList, isLineEnd c = false :=
      isLineEnd_of_all (by decide)
    have closing : splitLinesFrom [] "END CODE".toList = ["END CODE".toList] := by decide
    have first : splitLines (framed (gap ++ (text ++ tail))) = "BEGIN CODE".toList ::
        splitLinesFrom [] ((gap ++ (text ++ tail)) ++ '\n' :: "END CODE".toList) :=
      splitLinesFrom_line opening [] _
    rw [first, splitLinesFrom_feeds feeds, closing]
    rfl
  -- The boundary check needs two things: that no inner line is a boundary, and that one of them has
  -- something to run.
  refine checkBoundaries_of_lines split ?_ ?_
  · intro line member
    obtain ⟨start, inside, rfl⟩ := List.mem_map.mp member
    exact ⟨spells.isBoundaryLine_lines free before behind .begins start inside,
      spells.isBoundaryLine_lines free before behind .ends start inside⟩
  · obtain ⟨part, spaced, line, member⟩ := exists_mem_lines before (text ++ tail)
    obtain ⟨c, rest, rfl, seen⟩ := spells.visible
    exact ⟨_, List.mem_map.mpr ⟨_, member, rfl⟩, isIdleLine_firstLine spaced line seen⟩

end Lines

/-- The stage after the line that opens a program. -/
def Stage.opened : Stage := ⟨.statement .blockStart, [⟨.program, false, []⟩]⟩

/-- Tokens that lead from the line that opens a program to the one that closes it are read as the
program, however they are spelled. -/
theorem Spells.parseProgram_framed {tokens : List Token} {lead text tail : List Char}
    {body : List Stmt} (spells : Spells tokens text) (free : .keyword .code ∉ tokens)
    (before : lead.all isSpacing = true) (behind : tail.all isSpacing = true)
    (path : Stage.opened.Path
      (tokens ++ [.separator, .keyword .ends, .keyword .code]) ⟨.ended body false, []⟩) :
    parseProgram (String.ofList (framed (lead ++ (text ++ tail)))) = .ok ⟨body⟩ := by
  obtain ⟨first, tokens, rfl⟩ : ∃ first others, tokens = first :: others := by
    cases spells <;> exact ⟨_, _, rfl⟩
  -- No statement starts with `ELSE`, so that the first line ends with a separator.
  have other : first ≠ .keyword .elses := by
    rintro rfl
    cases path with
    | cons takes => exact absurd takes.admitted (by decide)
  -- The two boundary lines are spelled tokens themselves, joined to the others by separators.
  have opening : Spells [.keyword .begins, .keyword .code] "BEGIN CODE".toList :=
    @Spells.next (.keyword .begins) _ [] [] [' '] _ trivial rfl (.inline rfl) (.last trivial)
  have closing : Spells [.keyword .ends, .keyword .code] "END CODE".toList :=
    @Spells.next (.keyword .ends) _ [] [] [' '] _ trivial rfl (.inline rfl) (.last trivial)
  have opened : Gap first ('\n' :: lead) [.separator] := .broken before rfl other
  have closed : Gap (.keyword .ends) (tail ++ ['\n']) [.separator] :=
    .broken (by simp [behind, isSpacing, isBreak]) (by simp [isBreak]) (by decide)
  have whole := opening.append opened (List.cons_ne_nil _ _)
    (spells.append closed (by simp) closing)
  have spelled : (String.ofList (framed (lead ++ (text ++ tail)))).toList =
      "BEGIN CODE".toList ++ ('\n' :: lead ++ (text ++ (tail ++ ['\n'] ++ "END CODE".toList))) := by
    have inner : '\n' :: (lead ++ (text ++ tail) ++ '\n' :: "END CODE".toList) =
        '\n' :: lead ++ (text ++ (tail ++ ['\n'] ++ "END CODE".toList)) := by simp
    rw [String.toList_ofList, ← inner]
    rfl
  have onward : Stage.initial.Path [.keyword .begins, .keyword .code, .separator] .opened :=
    .cons ⟨rfl, rfl, rfl⟩ (.cons ⟨rfl, rfl, rfl⟩ (.single ⟨rfl, rfl, rfl⟩))
  have reads : Reads .initial _ ⟨body⟩ := whole.reads (onward.append path) rfl
  have bounded := spells.checkBoundaries_framed free before behind
  rw [parseProgram_eq_ok_iff]
  exact ⟨String.toList_ofList ▸ bounded, spelled ▸ reads⟩

end Pseudocode
