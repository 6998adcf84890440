import Pseudocode.Proofs.Source.Reading

/-! How a comment at the end of a line changes what is read: not at all, unless it holds the word
that ends the gap before an `ELSE`. -/

namespace Pseudocode

namespace Lexer

/-- Whether a text holds the word `ELSE`. Nothing is asked of what stands before it. -/
def holdsElse : List Char → Bool
  | [] => false
  | c :: rest => startsElse (c :: rest) || holdsElse rest

/-- A text with a comment put in before the line feed that ends a line. -/
def commented (before comment after : List Char) : List Char :=
  before ++ ' ' :: '#' :: (comment ++ '\n' :: after)

/-- Two texts that differ by a comment at most: they are the same, or one of them has the comment
at the end of a line that still has to be read. -/
inductive Alike (comment after : List Char) : List Char → List Char → Prop where
  /-- There is no difference. -/
  | same (text : List Char) : Alike comment after text text
  /-- The comment stands before the end of the line. -/
  | apart {before : List Char} (unix : '\r' ∉ before) :
    Alike comment after (before ++ '\n' :: after) (commented before comment after)

/-- Two texts that start with a token, or with nothing at all, and differ by a comment at most. -/
inductive Facing (comment after : List Char) : List Char → List Char → Prop where
  /-- There is no difference. -/
  | same (text : List Char) : Facing comment after text text
  /-- The comment stands further on in the line. -/
  | apart {c : Char} {before : List Char} (unix : '\r' ∉ c :: before) :
    Facing comment after (c :: before ++ '\n' :: after) (commented (c :: before) comment after)

/-- Whether a text starts with a word is decided before anything that the word does not have. -/
theorem isPrefixOf_append_stop {word : List Char} {stop : Char} (absent : stop ∉ word)
    (text after : List Char) :
    word.isPrefixOf (text ++ stop :: after) = word.isPrefixOf text := by
  -- The word is compared letter by letter, and the stop is none of its letters.
  induction word generalizing text with
  | nil => simp
  | cons c word ih =>
    simp only [List.mem_cons, not_or] at absent
    cases text with
    | nil => simp [List.isPrefixOf, Ne.symm absent.1]
    | cons d text => simp [List.isPrefixOf, ih absent.2]

/-- A text starts with the word `ELSE` when these letters come first and no word goes on there. -/
theorem startsElse_eq (text : List Char) :
    startsElse text =
      ("ELSE".toList.isPrefixOf text && (text.drop 4).head?.all fun c => !isWordChar c) := by
  -- The definition looks at five characters at once, and this at the word and then at one more.
  unfold startsElse
  split
  · rename_i rest
    have word : "ELSE".toList.isPrefixOf ('E' :: 'L' :: 'S' :: 'E' :: rest) = true := by
      simp [List.isPrefixOf]
    rw [word]
    cases rest <;> rfl
  · rename_i other
    have word : "ELSE".toList.isPrefixOf text = false := by
      rw [Bool.eq_false_iff]
      intro starts
      obtain ⟨rest, rfl⟩ := List.isPrefixOf_iff_prefix.mp starts
      exact other rest rfl
    rw [word, Bool.false_and]

/-- Whether a text starts with the word `ELSE` is decided before anything that ends a word. -/
theorem startsElse_append (text after : List Char) {stop : Char}
    (ends : isWordChar stop = false) : startsElse (text ++ stop :: after) = startsElse text := by
  have absent : stop ∉ "ELSE".toList := by
    -- The stop is none of the letters.
    intro member
    have letters : "ELSE".toList.all isWordChar = true := by decide
    simp [List.all_eq_true.mp letters stop member] at ends
  rw [startsElse_eq, startsElse_eq, isPrefixOf_append_stop absent]
  -- When the letters are there, the next character is in the text or it is the stop.
  cases starts : "ELSE".toList.isPrefixOf text with
  | false => rfl
  | true =>
    obtain ⟨rest, rfl⟩ := List.isPrefixOf_iff_prefix.mp starts
    have four : ∀ tail : List Char, ("ELSE".toList ++ tail).drop 4 = tail := fun _ => rfl
    rw [List.append_assoc, four, four]
    cases rest with
    | nil => simp [ends]
    | cons c rest => rfl

/-- A comment that leads to no `ELSE` of its own: it does not hold the word, or the gap that it
stands in goes on to one after it. -/
def Harmless (comment after : List Char) : Prop :=
  holdsElse comment = false ∨ (lastElse? false after).isSome = true

section Comment

variable {comment after : List Char}

/-- The last word that is reached from within a harmless comment is one after its line. -/
theorem lastElse?_comment (line : '\n' ∉ comment) (harmless : Harmless comment after) :
    lastElse? true (comment ++ '\n' :: after) = lastElse? false after := by
  induction comment with
  -- At the end of the comment the line ends, and with it what belongs to the comment.
  | nil =>
    simp only [List.nil_append, lastElse?]
    cases lastElse? false after <;> rfl
  | cons c rest ih =>
    simp only [List.mem_cons, not_or] at line
    have inside : (c != '\n') = true := by simpa using Ne.symm line.1
    -- A comment that holds no word holds none further on.
    have later : Harmless rest after := by
      refine harmless.imp_left fun free => ?_
      simp only [holdsElse, Bool.or_eq_false_iff] at free
      exact free.2
    simp only [List.cons_append, lastElse?, inside, Bool.and_self, if_true, ih line.2 later]
    cases reached : lastElse? false after with
    | some found => rfl
    | none =>
      -- No word is reached after the line, so that the comment must not start with it.
      have free : holdsElse (c :: rest) = false := by simpa [Harmless, reached] using harmless
      simp only [holdsElse, Bool.or_eq_false_iff] at free
      have here : startsElse (c :: (rest ++ '\n' :: after)) = false := by
        rw [← List.cons_append, startsElse_append _ _ (by decide), free.1]
      simp [here]

/-- Where the search for the last word goes on after a character, if it does. -/
def elseContinues (inComment : Bool) (c : Char) : Option Bool :=
  if inComment && c != '\n' then some true
  else if c == '#' then some true
  else if isGapChar c then some false
  else none

/-- The last word after a character is one further on, or else it starts with the character. -/
theorem lastElse?_cons (inComment : Bool) (c : Char) (text : List Char) :
    lastElse? inComment (c :: text) =
      ((elseContinues inComment c).bind fun inside => lastElse? inside text).or
        (if startsElse (c :: text) then some (c :: text) else none) := by
  have chosen : ((elseContinues inComment c).bind fun inside => lastElse? inside text) =
      if inComment && c != '\n' then lastElse? true text
      else if c == '#' then lastElse? true text
      else if isGapChar c then lastElse? false text
      else none := by
    unfold elseContinues
    repeat' split
    all_goals rfl
  -- What the definition finds further on is what the search gives after this character.
  rw [chosen, lastElse?]
  split
  · rename_i found later
    rw [later]
    rfl
  · rename_i later
    rw [later]
    rfl

/-- The last word that is reached before the end of a line is one after it. -/
theorem lastElse?_newline (inComment : Bool) :
    lastElse? inComment ('\n' :: after) = lastElse? false after := by
  -- A line feed ends a comment, and is part of a gap.
  have continues : elseContinues inComment '\n' = some false := by cases inComment <;> rfl
  rw [lastElse?_cons, continues]
  exact Option.or_none

/-- The last word that is reached from the start of a harmless comment is one after the line. -/
theorem lastElse?_hash (line : '\n' ∉ comment) (harmless : Harmless comment after)
    (inComment : Bool) :
    lastElse? inComment ('#' :: (comment ++ '\n' :: after)) = lastElse? false after := by
  -- The hash starts a comment, or belongs to the one before it.
  have continues : elseContinues inComment '#' = some true := by cases inComment <;> rfl
  rw [lastElse?_cons, continues, Option.bind_some, lastElse?_comment line harmless]
  exact Option.or_none

/-- The same with a blank before the comment. -/
theorem lastElse?_commented (line : '\n' ∉ comment) (harmless : Harmless comment after)
    (inComment : Bool) :
    lastElse? inComment (commented [] comment after) = lastElse? false after := by
  -- A blank goes on with what is there.
  have continues : elseContinues inComment ' ' = some inComment := by cases inComment <;> rfl
  rw [commented, List.nil_append, lastElse?_cons, continues, Option.bind_some,
    lastElse?_hash line harmless]
  exact Option.or_none

/-- A result is related to itself. -/
theorem rel_facing_refl (found : Option (List Char)) :
    Option.Rel (Facing comment after) found found := by
  cases found with
  | none => exact .none
  | some text => exact .some (.same text)

/-- Of two pairs of results that are related, the first results that are there are related. -/
theorem rel_or {α : Type} {R : α → α → Prop} {first first' second second' : Option α}
    (early : Option.Rel R first first') (late : Option.Rel R second second') :
    Option.Rel R (first.or second) (first'.or second') := by
  cases early with
  | some related => exact .some related
  | none => exact late

/-- The last word that is reached is the same with the comment and without it. -/
theorem lastElse?_facing (line : '\n' ∉ comment) (harmless : Harmless comment after)
    (inComment : Bool) {before : List Char} (unix : '\r' ∉ before) :
    Option.Rel (Facing comment after) (lastElse? inComment (before ++ '\n' :: after))
      (lastElse? inComment (commented before comment after)) := by
  induction before generalizing inComment with
  -- The line ends here in the one text, and the comment starts here in the other.
  | nil =>
    rw [List.nil_append, lastElse?_newline, lastElse?_commented line harmless]
    exact rel_facing_refl _
  | cons c rest ih =>
    have starts : startsElse (c :: (rest ++ '\n' :: after)) =
        startsElse (c :: commented rest comment after) := by
      rw [commented, ← List.cons_append, ← List.cons_append, startsElse_append _ _ (by decide),
        startsElse_append _ _ (by decide)]
    change Option.Rel _ (lastElse? inComment (c :: (rest ++ '\n' :: after)))
      (lastElse? inComment (c :: commented rest comment after))
    rw [lastElse?_cons, lastElse?_cons, starts]
    -- A word further on comes first, and else both texts start with the word or neither does.
    refine rel_or ?_ ?_
    · cases elseContinues inComment c with
      | none => exact .none
      | some inside => exact ih inside fun member => unix (by simp [member])
    · split
      · exact .some (.apart unix)
      · exact .none

/-- Blanks and comments within a line end where the line does. -/
theorem dropInline_comment (line : '\n' ∉ comment) :
    dropInline true (comment ++ '\n' :: after) = '\n' :: after := by
  induction comment with
  -- The comment ends with its line.
  | nil => rfl
  | cons c rest ih =>
    simp only [List.mem_cons, not_or] at line
    have inside : (c == '\n') = false := by simpa using Ne.symm line.1
    simpa [dropInline, inside] using ih line.2

/-- What is left after blanks and comments within a line is the same with the comment and without
it. -/
theorem dropInline_facing (line : '\n' ∉ comment) (inComment : Bool) {before : List Char}
    (unix : '\r' ∉ before) :
    Facing comment after (dropInline inComment (before ++ '\n' :: after))
      (dropInline inComment (commented before comment after)) := by
  induction before generalizing inComment with
  -- Only the comment and the blank before it are dropped.
  | nil =>
    have dropped : dropInline inComment (commented [] comment after) = '\n' :: after := by
      have inside : dropInline true (comment ++ '\n' :: after) = '\n' :: after :=
        dropInline_comment line
      cases inComment <;> simpa [commented, dropInline, isInlineBlank] using inside
    rw [dropped]
    cases inComment <;> exact .same _
  | cons c rest ih =>
    have later := fun inside => ih inside fun member => unix (by simp [member])
    change Facing comment after (dropInline inComment (c :: (rest ++ '\n' :: after)))
      (dropInline inComment (c :: commented rest comment after))
    -- The first character is the same in both texts, and with it what is done about it.
    simp only [dropInline]
    -- Within a comment only the line feed stops, and outside of one every visible character.
    split
    · split
      · exact .apart unix
      · exact later _
    · split
      · exact later _
      · split
        · exact later _
        · exact .apart unix

/-- The gap before an `ELSE` is the same with the comment and without it. -/
theorem afterElseGap?_facing (line : '\n' ∉ comment) (harmless : Harmless comment after)
    {before : List Char} (unix : '\r' ∉ before) :
    Option.Rel (Facing comment after) (afterElseGap? (before ++ '\n' :: after))
      (afterElseGap? (commented before comment after)) := by
  cases before with
  | nil =>
    -- Both gaps start here, and the comment is a part of the second one.
    change Option.Rel _ (lastElse? false after)
      (lastElse? false ('#' :: (comment ++ '\n' :: after)))
    rw [lastElse?_hash line harmless]
    exact rel_facing_refl _
  | cons c rest =>
    have later : ∀ inside, Option.Rel (Facing comment after)
        (lastElse? inside (rest ++ '\n' :: after))
        (lastElse? inside (commented rest comment after)) :=
      fun inside => lastElse?_facing line harmless inside fun member => unix (by simp [member])
    change Option.Rel _ (afterElseGap? (c :: (rest ++ '\n' :: after)))
      (afterElseGap? (c :: commented rest comment after))
    -- The gap starts with the same character, and from there the last word decides.
    simp only [afterElseGap?]
    -- A gap starts with a comment, a blank or a line end, and else there is none.
    split
    · exact later _
    · split
      · exact later _
      · exact .none

/-- What is left after what has no meaning is the same with the comment and without it. -/
theorem skip_facing (line : '\n' ∉ comment) (harmless : Harmless comment after)
    {text text' : List Char} (alike : Alike comment after text text') :
    Facing comment after (skip text) (skip text') := by
  cases alike with
  | same => exact .same _
  | @apart before unix =>
    -- The gap is tried first in both texts, and it is there in both or in neither.
    unfold skip
    have gap : Option.Rel (Facing comment after) (afterElseGap? (before ++ '\n' :: after))
        (afterElseGap? (commented before comment after)) := afterElseGap?_facing line harmless unix
    revert gap
    generalize afterElseGap? (before ++ '\n' :: after) = plain
    generalize afterElseGap? (commented before comment after) = other
    intro gap
    cases gap with
    -- A gap before an `ELSE` has been found in both texts.
    | some related => exact related
    -- There is no such gap, so that only the line is gone on with.
    | none => exact dropInline_facing line false unix

/-- Layout ends where it does without the comment. -/
theorem dropLayout_comment (line : '\n' ∉ comment) :
    dropLayout true (comment ++ '\n' :: after) = dropLayout false after := by
  -- A comment is layout up to the end of its line, and the line end is layout too.
  induction comment with
  | nil => rfl
  | cons c rest ih =>
    simp only [List.mem_cons, not_or] at line
    have inside : (c != '\n') = true := by simpa using Ne.symm line.1
    simpa [dropLayout, inside] using ih line.2

/-- What is left after layout is the same with the comment and without it. -/
theorem dropLayout_alike (line : '\n' ∉ comment) (inComment : Bool) {before : List Char}
    (unix : '\r' ∉ before) :
    Alike comment after (dropLayout inComment (before ++ '\n' :: after))
      (dropLayout inComment (commented before comment after)) := by
  induction before generalizing inComment with
  | nil =>
    -- The line feed is layout in both.
    have plain : dropLayout inComment ([] ++ '\n' :: after) = dropLayout false after := by
      cases inComment <;> rfl
    have dropped : dropLayout inComment (commented [] comment after) = dropLayout false after := by
      have inside : dropLayout true (comment ++ '\n' :: after) = dropLayout false after :=
        dropLayout_comment line
      cases inComment <;> simpa [commented, dropLayout, isInlineBlank] using inside
    rw [plain, dropped]
    exact .same _
  | cons c rest ih =>
    have later := fun inside => ih inside fun member => unix (by simp [member])
    -- A carriage return is layout only before a line feed, which the comment would part it from.
    have feed : (c == '\r') = false := by
      simp only [List.mem_cons, not_or] at unix
      simpa using Ne.symm unix.1
    change Alike comment after (dropLayout inComment (c :: (rest ++ '\n' :: after)))
      (dropLayout inComment (c :: commented rest comment after))
    simp only [dropLayout, feed, Bool.false_and, Bool.false_eq_true, if_false]
    -- Layout goes on, or it ends at the same character in both texts.
    split
    · exact later _
    · split
      · exact later _
      · split
        · exact later _
        · exact .apart unix

end Comment

end Lexer

end Pseudocode
