import Pseudocode.Proofs.Source.CommentLexing

/-! A harmless comment changes no token: what a text is read as, it is read as with the comment
too. -/

namespace Pseudocode

namespace Lexer

section Span

variable {p : Char → Bool} {stop : Char}

/-- The characters that are taken come before the first that is not. -/
theorem takeWhile_append_stop (stops : p stop = false) (before after : List Char) :
    (before ++ stop :: after).takeWhile p = before.takeWhile p := by
  -- What stands after the stop is never looked at.
  induction before with
  | nil => simp [stops]
  | cons c before ih => simp only [List.cons_append, List.takeWhile_cons, ih]

/-- The first character that is not dropped stays, with all that follows it. -/
theorem dropWhile_append_stop (stops : p stop = false) (before after : List Char) :
    (before ++ stop :: after).dropWhile p = before.dropWhile p ++ stop :: after := by
  induction before with
  -- What is dropped comes before the stop.
  | nil => simp [stops]
  | cons c before ih =>
    simp only [List.cons_append, List.dropWhile_cons, ih]
    split <;> rfl

end Span

/-- Whether a character neither closes an enclosed text nor ends its line. -/
def staysOpen (close c : Char) : Bool :=
  c != close && c != '\n'

/-- The text up to a closing character on the same line, read as the given token. -/
def enclosedAt (close : Char) (make : List Char → Token) (text : List Char) :
    List (Token × List Char) :=
  match text.dropWhile (staysOpen close) with
  | c :: after => if c = close then [(make (text.takeWhile (staysOpen close)), after)] else []
  | [] => []

/-- A text in double quotes is enclosed by the closing quote. -/
theorem quotationAt_eq (text : List Char) :
    quotationAt text = enclosedAt '"' .quotation text := by
  have stays : (fun c => c != '"' && c != '\n') = staysOpen '"' := rfl
  simp only [quotationAt, List.span_eq_takeWhile_dropWhile, stays, enclosedAt]
  -- What the content stops at is the quote, the end of the line, or nothing.
  cases text.dropWhile (staysOpen '"') with
  | nil => rfl
  | cons c rest => split <;> simp_all

/-- A text in brackets is enclosed by the closing bracket, but for the bracket by itself. -/
theorem bracketedAt_eq {text : List Char} (other : ∀ rest, text ≠ ']' :: ']' :: rest) :
    bracketedAt text = enclosedAt ']' .bracketed text := by
  have stays : (fun c => c != ']' && c != '\n') = staysOpen ']' := rfl
  unfold bracketedAt
  -- The bracket by itself is tried first, and it is excluded here.
  split
  · rename_i rest
    exact absurd rfl (other rest)
  · simp only [List.span_eq_takeWhile_dropWhile, stays, enclosedAt]
    -- The rest is as for quotation marks.
    cases text.dropWhile (staysOpen ']') with
    | nil => rfl
    | cons c rest => split <;> simp_all

/-- A digit is where a number starts, and nothing else. -/
theorem tokensAt_digit {c : Char} (digit : c.isDigit = true) (rest : List Char) :
    tokensAt (c :: rest) = numbersAt (c :: rest) := by
  unfold tokensAt
  -- No other token starts with a digit, so that only the last case is left.
  split
  case h_27 => simp [digit]
  all_goals
    rename_i same
    simp only [List.cons.injEq] at same
    obtain ⟨rfl, _⟩ := same
    exact absurd digit (by decide)

section Comment

variable {comment after : List Char}

/-- Two tokens with what is left after them: they are one token, and a comment at most tells the
texts apart. -/
def SameToken (comment after : List Char) (first second : Token × List Char) : Prop :=
  first.1 = second.1 ∧ Alike comment after first.2 second.2

/-- The first text starts with no token, or both texts start with the same ones. A text that starts
with none may be read when a comment closes what it opens. -/
def Follows (comment after : List Char) (plain other : List (Token × List Char)) : Prop :=
  plain = [] ∨ List.Forall₂ (SameToken comment after) plain other

/-- A token by itself is followed by the same token. -/
theorem Follows.single {token : Token} {rest rest' : List Char}
    (alike : Alike comment after rest rest') :
    Follows comment after [(token, rest)] [(token, rest')] :=
  .inr (.cons ⟨rfl, alike⟩ .nil)

/-- The token that is chosen among those of the first text is chosen among the others too. -/
theorem Follows.find? {plain other : List (Token × List Char)}
    (follows : Follows comment after plain other) {admits : TokenClass → Bool} {token : Token}
    {rest : List Char}
    (found : plain.find? (fun (token, _) => admits token.tokenClass) = some (token, rest)) :
    ∃ rest', other.find? (fun (token, _) => admits token.tokenClass) = some (token, rest') ∧
      Alike comment after rest rest' := by
  rcases follows with rfl | same
  -- Where no token is there, none is chosen.
  · simp at found
  -- The tokens are tried in the same order, and each is admitted in both texts or in neither.
  · induction same with
    | nil => simp at found
    | @cons first second _ _ here _ ih =>
      obtain ⟨word, left⟩ := first
      obtain ⟨word', left'⟩ := second
      obtain ⟨rfl, alike⟩ : word = word' ∧ Alike comment after left left' := here
      simp only [List.find?_cons] at found ⊢
      cases chosen : admits word.tokenClass with
      | true =>
        simp only [chosen, Option.some.injEq, Prod.mk.injEq] at found
        obtain ⟨rfl, rfl⟩ := found
        exact ⟨left', rfl, alike⟩
      | false =>
        simp only [chosen] at found
        exact ih found

/-- What a text does not start with, it does not start with after a comment is put in. -/
theorem commented_ne_cons {before : List Char} {c : Char} (visible : c ≠ ' ')
    (other : ∀ rest, before ++ '\n' :: after ≠ c :: rest) (rest : List Char) :
    commented before comment after ≠ c :: rest := by
  -- On an empty line the comment comes first, and it starts with a blank.
  cases before with
  -- The comment starts with a blank, and that is not the character.
  | nil =>
    intro same
    exact visible (List.cons.inj same).1.symm
  | cons d before =>
    intro same
    obtain ⟨rfl, -⟩ := List.cons.inj same
    exact other (before ++ '\n' :: after) rfl

/-- An enclosed text that ends on its line does so before the comment. -/
theorem enclosedAt_follows {close : Char} (visible : '\n' ≠ close) (make : List Char → Token)
    {before : List Char} (unix : '\r' ∉ before) :
    Follows comment after (enclosedAt close make (before ++ '\n' :: after))
      (enclosedAt close make (commented before comment after)) := by
  cases dropped : before.dropWhile (staysOpen close) with
  | nil =>
    -- Nothing closes the text before the line ends.
    left
    have feed : staysOpen close '\n' = false := by simp [staysOpen]
    simp only [enclosedAt, dropWhile_append_stop feed, dropped, List.nil_append, if_neg visible]
  | cons c rest =>
    -- The content is a part of the line.
    have split : before.takeWhile (staysOpen close) ++ c :: rest = before := by
      rw [← dropped, List.takeWhile_append_dropWhile]
    have shorter : (before.takeWhile (staysOpen close)).length ≠ before.length := by
      have lengths := congrArg List.length split
      simp only [List.length_append, List.length_cons] at lengths
      omega
    have unix' : '\r' ∉ rest := fun member => unix (by rw [← split]; simp [member])
    -- What ends the text stands before the comment, so that both texts end there.
    have here : ∀ tail, enclosedAt close make (before ++ tail) =
        if c = close then [(make (before.takeWhile (staysOpen close)), rest ++ tail)] else [] := by
      intro tail
      simp only [enclosedAt, List.dropWhile_append, List.takeWhile_append, dropped,
        List.isEmpty_cons, Bool.false_eq_true, if_false, List.cons_append, if_neg shorter]
    rw [commented, here, here]
    split
    · exact .single (.apart unix')
    · exact .inl rfl

/-- A text in double quotes that ends on its line does so before the comment. -/
theorem quotationAt_follows {before : List Char} (unix : '\r' ∉ before) :
    Follows comment after (quotationAt (before ++ '\n' :: after))
      (quotationAt (commented before comment after)) := by
  rw [quotationAt_eq, quotationAt_eq]
  exact enclosedAt_follows (by decide) .quotation unix

/-- A text in brackets that ends on its line does so before the comment. -/
theorem bracketedAt_follows {before : List Char} (unix : '\r' ∉ before) :
    Follows comment after (bracketedAt (before ++ '\n' :: after))
      (bracketedAt (commented before comment after)) := by
  by_cases bracket : ∃ rest, before = ']' :: ']' :: rest
  -- The first bracket is the content, and the second one closes it.
  · obtain ⟨rest, rfl⟩ := bracket
    exact .single (.apart fun member => unix (by simp [member]))
  · -- Two brackets in a row would both stand before the comment.
    have plain : ∀ rest, before ++ '\n' :: after ≠ ']' :: ']' :: rest := by
      rintro rest same
      rcases before with _ | ⟨c, _ | ⟨d, before⟩⟩
      · simp at same
      · simp at same
      · simp only [List.cons_append, List.cons.injEq] at same
        obtain ⟨rfl, rfl, -⟩ := same
        exact bracket ⟨before, rfl⟩
    have other : ∀ rest, commented before comment after ≠ ']' :: ']' :: rest := by
      rintro rest same
      rcases before with _ | ⟨c, _ | ⟨d, before⟩⟩
      · simp [commented] at same
      · simp [commented] at same
      · simp only [commented, List.cons_append, List.cons.injEq] at same
        obtain ⟨rfl, rfl, -⟩ := same
        exact bracket ⟨before, rfl⟩
    rw [bracketedAt_eq plain, bracketedAt_eq other]
    exact enclosedAt_follows (by decide) .bracketed unix

/-- A number ends before the comment. -/
theorem numbersAt_follows {before : List Char} (unix : '\r' ∉ before) :
    Follows comment after (numbersAt (before ++ '\n' :: after))
      (numbersAt (commented before comment after)) := by
  -- Neither the line feed nor the blank before the comment is a digit.
  have feed : Char.isDigit '\n' = false := by decide
  have blank : Char.isDigit ' ' = false := by decide
  have unix' : '\r' ∉ before.dropWhile Char.isDigit :=
    fun member => unix ((List.dropWhile_suffix _).mem member)
  simp only [numbersAt, commented, List.span_eq_takeWhile_dropWhile, takeWhile_append_stop feed,
    takeWhile_append_stop blank, dropWhile_append_stop feed, dropWhile_append_stop blank]
  generalize before.dropWhile Char.isDigit = rest at unix' ⊢
  -- After the whole part stands the end of the line, or a character that is in both texts.
  cases rest with
  | nil => exact .single (.apart unix')
  | cons c rest =>
    -- What is left of the line is a part of it.
    have later : '\r' ∉ rest.dropWhile Char.isDigit :=
      fun member => unix' (List.mem_cons_of_mem _ ((List.dropWhile_suffix _).mem member))
    simp only [List.cons_append, List.tail_cons, List.head?_cons, takeWhile_append_stop feed,
      takeWhile_append_stop blank, dropWhile_append_stop feed, dropWhile_append_stop blank]
    split
    · exact .inr (.cons ⟨rfl, .apart later⟩ (.cons ⟨rfl, .apart unix'⟩ .nil))
    · exact .single (.apart unix')

/-- What a line starts with, short of its end, is a part of it. -/
theorem line_cons {before rest : List Char} {c : Char} (visible : '\n' ≠ c)
    (same : before ++ '\n' :: after = c :: rest) :
    ∃ tail, before = c :: tail ∧ rest = tail ++ '\n' :: after := by
  cases before with
  | nil => exact absurd (List.cons.inj same).1 visible
  | cons d tail =>
    obtain ⟨rfl, rfl⟩ := List.cons.inj same
    exact ⟨tail, rfl, rfl⟩

/-- Every token other than a word that a line starts with is there with the comment too. -/
theorem tokensAt_follows (line : '\n' ∉ comment) {c : Char} {before : List Char}
    (unix : '\r' ∉ c :: before) :
    Follows comment after (tokensAt (c :: before ++ '\n' :: after))
      (tokensAt (commented (c :: before) comment after)) := by
  -- A digit starts a number and nothing else.
  by_cases digit : c.isDigit = true
  · rw [commented, List.cons_append, List.cons_append, tokensAt_digit digit, tokensAt_digit digit]
    exact numbersAt_follows unix
  · change Follows comment after (tokensAt (c :: (before ++ '\n' :: after)))
      (tokensAt (c :: commented before comment after))
    -- What is left of the line after its first characters has no carriage return either.
    have later : '\r' ∉ before := fun member => unix (List.mem_cons_of_mem _ member)
    have shorter : ∀ {d tail}, before = d :: tail → '\r' ∉ tail :=
      fun same member => later (same ▸ List.mem_cons_of_mem _ member)
    generalize whole : before ++ '\n' :: after = text
    generalize start : c :: text = plain
    generalize target : tokensAt (c :: commented before comment after) = other
    -- The character that the line starts with decides, and for some the one after it.
    unfold tokensAt
    split
    -- Nothing at all starts with this character.
    case h_27 =>
      subst start
      left
      simp [digit]
    all_goals
      obtain ⟨rfl, rfl⟩ := List.cons.inj start
      subst target
    -- Two tokens are possible, and both end before the comment.
    case h_1 =>
      obtain ⟨tail, rfl, rfl⟩ := line_cons (by decide) whole
      exact .inr (.cons ⟨rfl, .apart (shorter rfl)⟩ (.cons ⟨rfl, .apart later⟩ .nil))
    case h_3 | h_4 | h_6 =>
      obtain ⟨tail, rfl, rfl⟩ := line_cons (by decide) whole
      exact .single (.apart (shorter rfl))
    -- The longer token is not there in either text.
    case h_2 once =>
      rw [tokensAt.eq_2 _ (commented_ne_cons (by decide) (whole ▸ once))]
      exact whole ▸ .single (.apart later)
    case h_5 once twice =>
      rw [tokensAt.eq_5 _ (commented_ne_cons (by decide) (whole ▸ once))
        (commented_ne_cons (by decide) (whole ▸ twice))]
      exact whole ▸ .single (.apart later)
    case h_7 once =>
      rw [tokensAt.eq_7 _ (commented_ne_cons (by decide) (whole ▸ once))]
      exact whole ▸ .single (.apart later)
    case h_21 => exact whole ▸ quotationAt_follows later
    case h_22 => exact whole ▸ bracketedAt_follows later
    case h_23 d _ =>
      -- A character that ends the line is none that may stand in quotes.
      by_cases feed : '\n' = d
      · subst feed
        exact .inl rfl
      · obtain ⟨tail, rfl, rest⟩ := line_cons feed whole
        obtain ⟨tail, rfl, rfl⟩ := line_cons (by decide) rest.symm
        change Follows comment after (if _ then _ else _) (if _ then _ else _)
        split
        · exact .inl rfl
        · exact .single (.apart fun member => later (by simp [member]))
    -- A carriage return is no part of the line.
    case h_24 => exact absurd List.mem_cons_self unix
    case h_25 | h_26 => exact whole ▸ .single (dropLayout_alike line false later)
    all_goals exact whole ▸ .single (.apart later)

/-- A keyword has name characters only. -/
theorem keyword_spelling_plain (keyword : Keyword) :
    keyword.spelling.toList.all isNameChar = true := by
  cases keyword with
  -- Most keywords are one fixed word.
  | logic op => cases op <;> decide
  | type varType => cases varType <;> decide
  | _ => decide

/-- What is no name character is in no keyword. -/
theorem notMem_keyword_spelling {stop : Char} (stops : isNameChar stop = false)
    (keyword : Keyword) : stop ∉ keyword.spelling.toList := by
  intro member
  have plain := List.all_eq_true.mp (keyword_spelling_plain keyword) stop member
  simp [stops] at plain

/-- A word that a line starts with is there with the comment too. -/
theorem readWord?_follows {admits : TokenClass → Bool} {before rest : List Char} {token : Token}
    (unix : '\r' ∉ before)
    (read : readWord? admits (before ++ '\n' :: after) = some (token, rest)) :
    ∃ rest', readWord? admits (commented before comment after) = some (token, rest') ∧
      Alike comment after rest rest' := by
  -- A word ends at a line feed and at a blank.
  have feed : isNameChar '\n' = false := by decide
  have blank : isNameChar ' ' = false := by decide
  cases named : admits .name with
  | true =>
    -- A name takes all name characters, and neither the line end nor the blank is one.
    have unix' : '\r' ∉ before.dropWhile isNameChar :=
      fun member => unix ((List.dropWhile_suffix _).mem member)
    simp only [readWord?, named, if_true, commented, List.span_eq_takeWhile_dropWhile,
      takeWhile_append_stop feed, takeWhile_append_stop blank, dropWhile_append_stop feed,
      dropWhile_append_stop blank] at read ⊢
    split at read
    all_goals
      simp only [Option.some.injEq, Prod.mk.injEq] at read
      obtain ⟨rfl, rfl⟩ := read
      exact ⟨_, rfl, .apart unix'⟩
  | false =>
    simp only [readWord?, named, Bool.false_eq_true, if_false, commented,
      isPrefixOf_append_stop (notMem_keyword_spelling feed _),
      isPrefixOf_append_stop (notMem_keyword_spelling blank _)] at read ⊢
    obtain ⟨keyword, found, same⟩ := Option.map_eq_some_iff.mp read
    obtain ⟨rfl, rfl⟩ := Prod.mk.inj same
    -- The keyword is a part of the line, so that what is left of the line is the same.
    have starts := List.find?_some found
    simp only [Bool.and_eq_true] at starts
    obtain ⟨tail, rfl⟩ := List.isPrefixOf_iff_prefix.mp starts.1
    rw [found]
    refine ⟨_, rfl, ?_⟩
    rw [← String.length_toList, List.append_assoc, List.append_assoc, List.drop_left,
      List.drop_left]
    exact .apart fun member => unix (List.mem_append_right _ member)

/-- There is nothing to read with the comment where there is nothing without it. -/
theorem Facing.nil_left {text : List Char} (facing : Facing comment after [] text) : text = [] := by
  generalize empty : ([] : List Char) = plain at facing
  -- The comment stands in a line with at least one character more.
  cases facing with
  | same => rfl
  | apart => cases empty

/-- Every token that a line starts with is there with the comment too. -/
theorem readToken?_follows (line : '\n' ∉ comment) {admits : TokenClass → Bool}
    {text text' rest : List Char} {token : Token} (facing : Facing comment after text text')
    (read : readToken? admits text = some (token, rest)) :
    ∃ rest', readToken? admits text' = some (token, rest') ∧ Alike comment after rest rest' := by
  cases facing with
  | same => exact ⟨rest, read, .same rest⟩
  | @apart c before unix =>
    -- Both texts start with the same character, so that both or neither start with a word.
    cases starts : isNameStart c with
    | true =>
      simp only [readToken?, commented, List.cons_append, List.head?_cons, Option.map_some,
        Option.getD_some, starts, if_true] at read ⊢
      exact readWord?_follows unix read
    | false =>
      simp only [readToken?, commented, List.cons_append, List.head?_cons, Option.map_some,
        Option.getD_some, starts, Bool.false_eq_true, if_false] at read ⊢
      exact (tokensAt_follows line unix).find? read

end Comment

end Lexer

/-- Texts that differ by a harmless comment are read as the same program. -/
theorem Reads.of_alike {comment after text text' : List Char} {stage : Stage} {program : Program}
    (line : '\n' ∉ comment) (harmless : Lexer.Harmless comment after)
    (alike : Lexer.Alike comment after text text') (reads : Reads stage text program) :
    Reads stage text' program := by
  -- The texts stay alike after every token, until there is nothing left of both.
  induction reads generalizing text' with
  | ended nothing complete =>
    -- What has no meaning is passed over in both texts.
    have facing := Lexer.skip_facing line harmless alike
    rw [nothing] at facing
    exact .ended (Lexer.Facing.nil_left facing) complete
  | token read inRange step _ ih =>
    -- The next token is the same one.
    obtain ⟨rest', read', further⟩ :=
      Lexer.readToken?_follows line (Lexer.skip_facing line harmless alike) read
    exact .token read' inRange step (ih further)

end Pseudocode
