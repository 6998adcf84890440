import Mathlib.Data.List.TakeDrop
import Pseudocode.Source.Parser

/-! What a source text is read as, said without the bookkeeping for messages: each token leads from
one stage to the next, and the last stage has the program. -/

namespace Pseudocode

namespace Lexer

/-- What is left after the gap before an `ELSE` is an end of the text. -/
theorem lastElse?_suffix {inComment : Bool} {text rest : List Char}
    (found : lastElse? inComment text = some rest) : rest <:+ text := by
  -- The last one lies further on, or the text itself starts with it.
  induction text generalizing inComment with
  | nil => simp [lastElse?] at found
  | cons c text ih =>
    have later : ∀ inside, lastElse? inside text = some rest → rest <:+ c :: text :=
      fun inside further => (ih further).trans (List.suffix_cons c text)
    simp only [lastElse?] at found
    split at found
    · rename_i further
      obtain rfl := Option.some.inj found
      split at further
      · exact later _ further
      · split at further
        · exact later _ further
        · split at further
          · exact later _ further
          · cases further
    · split at found
      · exact Option.some.inj found ▸ List.suffix_rfl
      · cases found

/-- What is left after the blanks and comments of a line is an end of the text. -/
theorem dropInline_suffix (inComment : Bool) (text : List Char) :
    dropInline inComment text <:+ text := by
  -- Either nothing is dropped, or the first character is and the rest is dropped from.
  induction text generalizing inComment with
  | nil => exact List.suffix_rfl
  | cons c text ih =>
    have later : ∀ inside, dropInline inside text <:+ c :: text :=
      fun inside => (ih inside).trans (List.suffix_cons c text)
    simp only [dropInline]
    split
    · split
      · exact List.suffix_rfl
      · exact later _
    · split
      · exact later _
      · split
        · exact later _
        · exact List.suffix_rfl

/-- What is left after layout is an end of the text. -/
theorem dropLayout_suffix (inComment : Bool) (text : List Char) :
    dropLayout inComment text <:+ text := by
  -- The argument is that for blanks, with line ends among what is dropped.
  induction text generalizing inComment with
  | nil => exact List.suffix_rfl
  | cons c text ih =>
    have later : ∀ inside, dropLayout inside text <:+ c :: text :=
      fun inside => (ih inside).trans (List.suffix_cons c text)
    simp only [dropLayout]
    split
    · exact later _
    · split
      · exact later _
      · split
        · exact later _
        · split
          · exact later _
          · exact List.suffix_rfl

/-- What is left after what has no meaning is an end of the text. -/
theorem skip_suffix (text : List Char) : skip text <:+ text := by
  unfold skip
  -- The gap before an `ELSE` is tried first, and it starts with the first character.
  cases gap : afterElseGap? text with
  | none => exact dropInline_suffix false text
  | some rest =>
    cases text with
    | nil => simp [afterElseGap?] at gap
    | cons c text =>
      refine List.IsSuffix.trans ?_ (List.suffix_cons c text)
      simp only [afterElseGap?] at gap
      split at gap
      · exact lastElse?_suffix gap
      · split at gap
        · exact lastElse?_suffix gap
        · cases gap

/-- A keyword has at least one letter. -/
theorem keyword_spelling_pos (keyword : Keyword) : 0 < keyword.spelling.length := by
  cases keyword with
  | logic op => cases op <;> decide
  | type varType => cases varType <;> decide
  | _ => decide

/-- A word takes at least one character. -/
theorem readWord?_length_lt {admits : TokenClass → Bool} {text rest : List Char} {token : Token}
    (starts : (text.head?.map isNameStart).getD false = true)
    (read : readWord? admits text = some (token, rest)) : rest.length < text.length := by
  cases text with
  | nil => simp at starts
  | cons c text =>
    -- What may start a name may also continue it, so that the word is not empty.
    have named : isNameChar c = true := by
      simp only [List.head?_cons, Option.map_some, Option.getD_some, isNameStart] at starts
      simp only [isNameChar, Char.isAlphanum]
      grind
    have spanned : ((c :: text).dropWhile isNameChar).length < (c :: text).length := by
      rw [List.dropWhile_cons_of_pos named]
      exact Nat.lt_succ_of_le (List.dropWhile_suffix _).length_le
    unfold readWord? at read
    split at read
    · simp only [List.span_eq_takeWhile_dropWhile] at read
      split at read
      all_goals
        obtain ⟨-, rfl⟩ := Prod.mk.inj (Option.some.inj read)
        exact spanned
    -- A keyword that runs on into what follows takes its own letters only.
    · obtain ⟨keyword, -, same⟩ := Option.map_eq_some_iff.mp read
      obtain ⟨-, rfl⟩ := Prod.mk.inj same
      have positive := keyword_spelling_pos keyword
      simp only [List.length_drop, List.length_cons]
      omega

/-- A number takes at least one digit. -/
theorem numbersAt_length_lt {text rest : List Char} {token : Token}
    (digit : (text.head?.map Char.isDigit).getD false = true)
    (found : (token, rest) ∈ numbersAt text) : rest.length < text.length := by
  cases text with
  | nil => simp at digit
  | cons c text =>
    have isDigit : c.isDigit = true := by simpa using digit
    have whole : ((c :: text).dropWhile Char.isDigit).length < (c :: text).length := by
      rw [List.dropWhile_cons_of_pos isDigit]
      exact Nat.lt_succ_of_le (List.dropWhile_suffix _).length_le
    simp only [numbersAt, List.span_eq_takeWhile_dropWhile] at found
    -- A fraction stands after the whole part, so it leaves even less.
    have fraction := (List.dropWhile_suffix Char.isDigit
      (l := ((c :: text).dropWhile Char.isDigit).tail)).length_le
    rw [List.length_tail] at fraction
    split at found
    · simp only [List.mem_cons, Prod.mk.injEq, List.not_mem_nil, or_false] at found
      rcases found with ⟨-, rfl⟩ | ⟨-, rfl⟩ <;> omega
    · simp only [List.mem_cons, Prod.mk.injEq, List.not_mem_nil, or_false] at found
      obtain ⟨-, rfl⟩ := found
      exact whole

/-- A text in double quotes takes its closing quote. -/
theorem quotationAt_length_lt {text rest : List Char} {token : Token}
    (found : (token, rest) ∈ quotationAt text) : rest.length < text.length := by
  -- What is left starts after the quote, and the quote is not in the content.
  simp only [quotationAt, List.span_eq_takeWhile_dropWhile] at found
  split at found
  · rename_i closing
    simp only [List.mem_cons, Prod.mk.injEq, List.not_mem_nil, or_false] at found
    obtain ⟨-, rfl⟩ := found
    have shorter := (List.dropWhile_suffix (fun c => c != '"' && c != '\n') (l := text)).length_le
    rw [closing, List.length_cons] at shorter
    omega
  · cases found

/-- A text in brackets takes its closing bracket. -/
theorem bracketedAt_length_lt {text rest : List Char} {token : Token}
    (found : (token, rest) ∈ bracketedAt text) : rest.length < text.length := by
  unfold bracketedAt at found
  split at found
  · simp only [List.mem_cons, Prod.mk.injEq, List.not_mem_nil, or_false] at found
    obtain ⟨-, rfl⟩ := found
    simp only [List.length_cons]
    omega
  · simp only [List.span_eq_takeWhile_dropWhile] at found
    split at found
    · rename_i closing
      simp only [List.mem_cons, Prod.mk.injEq, List.not_mem_nil, or_false] at found
      obtain ⟨-, rfl⟩ := found
      have shorter :=
        (List.dropWhile_suffix (fun c => c != ']' && c != '\n') (l := text)).length_le
      rw [closing, List.length_cons] at shorter
      omega
    · cases found

/-- A token other than a word takes at least one character. -/
theorem tokensAt_length_lt {text rest : List Char} {token : Token}
    (found : (token, rest) ∈ tokensAt text) : rest.length < text.length := by
  -- The cases are the characters that a token may start with, in the order of the definition.
  unfold tokensAt at found
  split at found
  case h_21 => exact Nat.lt_succ_of_lt (quotationAt_length_lt found)
  case h_22 => exact Nat.lt_succ_of_lt (bracketedAt_length_lt found)
  case h_23 =>
    split at found
    · cases found
    · simp only [List.mem_cons, Prod.mk.injEq, List.not_mem_nil, or_false] at found
      obtain ⟨-, rfl⟩ := found
      simp only [List.length_cons]
      omega
  -- A separator takes the layout that follows it too.
  case h_24 rest' | h_25 rest' | h_26 rest' =>
    simp only [List.mem_cons, Prod.mk.injEq, List.not_mem_nil, or_false] at found
    obtain ⟨-, rfl⟩ := found
    have shorter := (dropLayout_suffix false rest').length_le
    simp only [List.length_cons]
    omega
  case h_27 =>
    split at found
    · rename_i digit
      exact numbersAt_length_lt digit found
    · cases found
  case h_1 =>
    simp only [List.mem_cons, Prod.mk.injEq, List.not_mem_nil, or_false] at found
    rcases found with ⟨-, rfl⟩ | ⟨-, rfl⟩ <;> simp only [List.length_cons] <;> omega
  all_goals
    simp only [List.mem_cons, Prod.mk.injEq, List.not_mem_nil, or_false] at found
    obtain ⟨-, rfl⟩ := found
    simp only [List.length_cons]
    omega

/-- A token takes at least one character. -/
theorem readToken?_length_lt {admits : TokenClass → Bool} {text rest : List Char} {token : Token}
    (read : readToken? admits text = some (token, rest)) : rest.length < text.length := by
  unfold readToken? at read
  -- The first character tells words from all other tokens.
  split at read
  · rename_i starts
    exact readWord?_length_lt starts read
  · exact tokensAt_length_lt (List.mem_of_find?_eq_some read)

/-- Nothing is read from an empty text. -/
theorem skip_ne_nil_of_readToken? {admits : TokenClass → Bool} {text rest : List Char}
    {token : Token} (read : readToken? admits (skip text) = some (token, rest)) :
    skip text ≠ [] := by
  intro empty
  have shorter := readToken?_length_lt read
  simp [empty] at shorter

end Lexer

/-- From a stage on, a text is read as a program. -/
inductive Reads : Stage → List Char → Program → Prop where
  /-- The text has ended, and the program may. -/
  | ended {stage : Stage} {text : List Char} {program : Program}
    (nothing : Lexer.skip text = []) (complete : stage.program? = some program) :
    Reads stage text program
  /-- A token is read, and it leads to a stage from which the rest is read as the program. -/
  | token {stage next : Stage} {text rest : List Char} {token : Token} {program : Program}
    (read : Lexer.readToken? stage.mode.admits (Lexer.skip text) = some (token, rest))
    (inRange : token.rangeError? = none) (step : stage.step token = some next)
    (onward : Reads next rest program) : Reads stage text program

/-- At the end of a text the reading has succeeded when the program is complete and no literal was
out of range. -/
theorem readTokens_of_skip_nil {source last text : List Char} {fuel : Nat} {stage : Stage}
    {range : Option SyntaxError} {program : Program} (nothing : Lexer.skip text = []) :
    readTokens source fuel stage last text range = .ok program ↔
      range = none ∧ stage.program? = some program := by
  -- No fuel is needed here: the end of the text is looked for before it.
  unfold readTokens
  split
  · cases stage.program? <;> cases range <;> simp
  · contradiction
  · contradiction

/-- Before the end of a text the reading succeeds when a token is read and leads on, and the rest is
read from there. -/
theorem readTokens_of_skip_ne_nil {source last text : List Char} {fuel : Nat} {stage : Stage}
    {range : Option SyntaxError} {program : Program} (something : Lexer.skip text ≠ []) :
    readTokens source (fuel + 1) stage last text range = .ok program ↔
      ∃ token rest next,
        Lexer.readToken? stage.mode.admits (Lexer.skip text) = some (token, rest) ∧
        stage.step token = some next ∧
        readTokens source fuel next (Lexer.skip text) rest
          (range.or (token.rangeError?.map (SyntaxError.before source (Lexer.skip text)))) =
          .ok program := by
  -- The first two cases are those of an empty text and of no fuel.
  rw [readTokens.eq_def]
  dsimp only
  split
  · contradiction
  · rename_i same _
    cases same
  · rename_i same _
    obtain rfl := Nat.succ.inj same
    -- The token that is read decides, and then the step that it leads to.
    rcases read : Lexer.readToken? stage.mode.admits (Lexer.skip text) with _ | ⟨token, rest⟩
    · simp
    · cases step : stage.step token with
      | none => simp [step]
      | some next => simp [step]

/-- Reading tokens succeeds with the program that the text is read as, when the fuel is enough for
one token for each character and no literal was out of range before. -/
theorem readTokens_iff_reads {source last text : List Char} {fuel : Nat} {stage : Stage}
    {range : Option SyntaxError} {program : Program} (enough : text.length ≤ fuel) :
    readTokens source fuel stage last text range = .ok program ↔
      range = none ∧ Reads stage text program := by
  -- The induction is on the fuel: every token takes one unit of it and at least one character.
  induction fuel generalizing stage last text range with
  | zero =>
    have nothing : Lexer.skip text = [] := by
      rw [List.length_eq_zero_iff.mp (by omega : text.length = 0)]
      rfl
    rw [readTokens_of_skip_nil nothing]
    refine and_congr_right fun _ => ⟨.ended nothing, fun reads => ?_⟩
    cases reads with
    | ended _ complete => exact complete
    | token read => exact absurd nothing (Lexer.skip_ne_nil_of_readToken? read)
  | succ fuel ih =>
    by_cases nothing : Lexer.skip text = []
    · rw [readTokens_of_skip_nil nothing]
      refine and_congr_right fun _ => ⟨.ended nothing, fun reads => ?_⟩
      cases reads with
      | ended _ complete => exact complete
      | token read => exact absurd nothing (Lexer.skip_ne_nil_of_readToken? read)
    · rw [readTokens_of_skip_ne_nil nothing]
      -- Each token leaves less text, so the fuel is enough for what is left.
      have less : ∀ {token rest},
          Lexer.readToken? stage.mode.admits (Lexer.skip text) = some (token, rest) →
          rest.length ≤ fuel := by
        intro token rest read
        have shorter := Lexer.readToken?_length_lt read
        have skipped := (Lexer.skip_suffix text).length_le
        omega
      constructor
      · rintro ⟨token, rest, next, read, step, onward⟩
        obtain ⟨inRange, reads⟩ := (ih (less read)).mp onward
        obtain ⟨before, here⟩ := Option.or_eq_none_iff.mp inRange
        exact ⟨before, .token read (Option.map_eq_none_iff.mp here) step reads⟩
      · rintro ⟨before, reads⟩
        cases reads with
        | ended ended => exact absurd ended nothing
        | @token _ next _ rest token _ read inRange step onward =>
          refine ⟨token, rest, next, read, step, (ih (less read)).mpr ⟨?_, onward⟩⟩
          simp [before, inRange]

/-- A program is read from the texts whose boundaries are right and that are read as it from the
first stage on. -/
theorem parseProgram_eq_ok_iff {source : String} {program : Program} :
    parseProgram source = .ok program ↔
      checkBoundaries source.toList = .ok () ∧ Reads .initial source.toList program := by
  -- The boundaries are checked first, and the fuel is one token for each character.
  unfold parseProgram
  simp only [bind, Except.bind]
  cases checkBoundaries source.toList with
  | error error => simp
  | ok =>
    simp only [true_and]
    rw [readTokens_iff_reads (Nat.le_refl _)]
    simp

end Pseudocode
