import Pseudocode.Proofs.Source.Spelling

/-! Texts that spell a list of tokens, with layout of every kind between them, and how such a text
is read: token by token, as if there were no layout at all. -/

namespace Pseudocode

open Lexer

/-- The characters that separate statements. -/
def isBreak (c : Char) : Bool :=
  c == '\n' || c == ';'

/-- The characters of layout: blanks, and what separates statements. -/
def isSpacing (c : Char) : Bool :=
  isInlineBlank c || isBreak c

/-- There are four characters of layout. -/
theorem eq_of_isSpacing {c : Char} (spacing : isSpacing c = true) :
    c = ' ' ∨ c = '\t' ∨ c = '\n' ∨ c = ';' := by
  -- The definition lists two kinds of characters, each of two.
  simpa [isSpacing, isBreak, isInlineBlank, or_assoc] using spacing

/-- The layout that may stand before a token, and the separator that it makes there, if any. -/
inductive Gap (after : Token) : List Char → List Token → Prop where
  /-- Blanks separate nothing. -/
  | inline {gap : List Char} (blanks : gap.all isInlineBlank = true) : Gap after gap []
  /-- Line feeds and semicolons make one separator, however many there are. -/
  | broken {gap : List Char} (spacing : gap.all isSpacing = true) (breaks : gap.any isBreak = true)
    (other : after ≠ .keyword .elses) : Gap after gap [.separator]
  /-- Layout before an `ELSE` belongs to it, and separates nothing. -/
  | joined {gap : List Char} (spacing : gap.all isSpacing = true) (same : after = .keyword .elses) :
    Gap after gap []

/-- A text spells some tokens: it starts with the first one and ends with the last. -/
inductive Spells : List Token → List Char → Prop where
  /-- One token is spelled by its characters. -/
  | last {token : Token} (writable : token.Writable) : Spells [token] token.chars
  /-- A token is spelled before others that start where it stops. -/
  | next {token after : Token} {marks tokens : List Token} {gap text : List Char}
    (writable : token.Writable) (stops : (gap ++ text).head?.all token.stops = true)
    (between : Gap after gap marks) (more : Spells (after :: tokens) text) :
    Spells (token :: (marks ++ after :: tokens)) (token.chars ++ (gap ++ text))

/-- A token can be read at a stage, and it leads to another. -/
structure Stage.Takes (stage : Stage) (token : Token) (next : Stage) : Prop where
  admitted : stage.mode.admits token.tokenClass = true
  inRange : token.rangeError? = none
  step : stage.step token = some next

/-- The tokens that lead from one stage to another. -/
inductive Stage.Path : Stage → List Token → Stage → Prop where
  | nil (stage : Stage) : Path stage [] stage
  | cons {stage next last : Stage} {token : Token} {tokens : List Token}
    (takes : stage.Takes token next) (onward : Path next tokens last) :
    Path stage (token :: tokens) last

/-- Tokens lead on from where others have led. -/
theorem Stage.Path.append {stage middle last : Stage} {front back : List Token}
    (first : stage.Path front middle) (second : middle.Path back last) :
    stage.Path (front ++ back) last := by
  -- The induction is on the first path, at whose end the second one starts.
  induction first with
  | nil => exact second
  | cons takes _ ih => exact .cons takes (ih second)

/-- What tokens lead to, the first of them and then the others do. -/
theorem Stage.Path.split {stage last : Stage} {front back : List Token}
    (path : stage.Path (front ++ back) last) :
    ∃ middle, stage.Path front middle ∧ Path middle back last := by
  -- The induction is on the front part, which is taken token by token.
  induction front generalizing stage with
  | nil => exact ⟨stage, .nil stage, path⟩
  | cons token front ih =>
    cases path with
    | cons takes onward =>
      obtain ⟨middle, first, second⟩ := ih onward
      exact ⟨middle, .cons takes first, second⟩

/-- One token leads to where it is taken. -/
theorem Stage.Path.single {stage next : Stage} {token : Token} (takes : stage.Takes token next) :
    stage.Path [token] next :=
  .cons takes (.nil next)

/-- What spells some tokens starts with the first of them, and that one stops there. -/
theorem Spells.starts {token : Token} {tokens : List Token} {text : List Char}
    (spells : Spells (token :: tokens) text) :
    token.Writable ∧ ∃ rest, text = token.chars ++ rest ∧ rest.head?.all token.stops = true := by
  -- Of several tokens the first is followed by the layout before the next one.
  cases spells with
  | last writable => exact ⟨writable, [], (List.append_nil _).symm, rfl⟩
  | next writable stops => exact ⟨writable, _, rfl, stops⟩

/-- What spells some tokens starts with something visible. -/
theorem Spells.visible {token : Token} {tokens : List Token} {text : List Char}
    (spells : Spells (token :: tokens) text) : ∃ c rest, text = c :: rest ∧ isVisible c = true := by
  obtain ⟨writable, rest, rfl, -⟩ := spells.starts
  -- Every token starts with a character that can be seen, and that is not part of layout.
  obtain ⟨c, tail, written, seen, -⟩ := token.chars_starts writable
  exact ⟨c, tail ++ rest, by rw [written]; rfl, seen⟩

/-- What spells some tokens starts with the word `ELSE` when the first token is that keyword. -/
theorem Spells.startsElse_iff {token : Token} {tokens : List Token} {text : List Char}
    (spells : Spells (token :: tokens) text) :
    startsElse text = true ↔ token = .keyword .elses := by
  obtain ⟨writable, rest, rfl, stops⟩ := spells.starts
  rw [startsElse_eq, Bool.and_eq_true, List.isPrefixOf_iff_prefix]
  constructor
  · rintro ⟨⟨tail, same⟩, ends⟩
    -- The word ends there, so that it is the first word of the text.
    have nameless : tail.head?.all (fun c => !isNameChar c) = true := by
      rw [← same] at ends
      exact @head?_all_not_isNameChar (.keyword .elses) tail rfl ends
    apply (takeWhile_isNameChar_chars writable stops .elses).mp
    rw [← same]
    exact takeWhile_append_rest (by decide) nameless
  · rintro rfl
    exact ⟨List.prefix_append _ _, stops⟩

/-- Layout is made of blanks and of what separates statements. -/
theorem Gap.spacing {after : Token} {gap : List Char} {marks : List Token}
    (between : Gap after gap marks) : gap.all isSpacing = true := by
  cases between with
  -- Blanks are layout, and the other gaps are layout by definition.
  | inline blanks =>
    rw [List.all_eq_true] at blanks ⊢
    intro c member
    simp [isSpacing, blanks c member]
  | broken spacing => exact spacing
  | joined spacing => exact spacing

/-- Layout that separates has blanks before its first separating character. -/
theorem exists_break {gap : List Char} (spacing : gap.all isSpacing = true)
    (breaks : gap.any isBreak = true) :
    ∃ lead mark more, gap = lead ++ mark :: more ∧ lead.all isInlineBlank = true ∧
      isBreak mark = true ∧ more.all isSpacing = true := by
  -- The induction is on the layout, and stops at the first character that separates.
  induction gap with
  | nil => cases breaks
  | cons c gap ih =>
    rw [List.all_cons, Bool.and_eq_true] at spacing
    rw [List.any_cons, Bool.or_eq_true] at breaks
    cases mark : isBreak c with
    | true => exact ⟨[], c, gap, rfl, rfl, mark, spacing.2⟩
    -- A character of layout that does not separate is a blank.
    | false =>
      have blank : isInlineBlank c = true := by simpa [isSpacing, mark] using spacing.1
      have later : gap.any isBreak = true := by simpa [mark] using breaks
      obtain ⟨lead, first, more, rfl, blanks, marked, rest⟩ := ih spacing.2 later
      exact ⟨c :: lead, first, more, rfl, by rw [List.all_cons, blank, blanks]; rfl, marked, rest⟩

namespace Lexer

/-- A visible character neither leads to an `ELSE` nor is layout. -/
theorem isVisible_iff {c : Char} (seen : isVisible c = true) :
    isGapChar c = false ∧ isInlineBlank c = false ∧ isSpacing c = false ∧ (c == '#') = false := by
  -- Each of these characters is told apart from the visible ones by being none of them.
  have other : ∀ d, isVisible d = false → c ≠ d := by
    rintro d hidden rfl
    simp [hidden] at seen
  simp [isGapChar, isInlineBlank, isSpacing, isBreak, other ' ' (by decide), other '\t' (by decide),
    other '\r' (by decide), other '\n' (by decide), other ';' (by decide), other '#' (by decide)]

/-- The characters of layout are those that may lead to an `ELSE`, the carriage return apart. -/
theorem isGapChar_of_isSpacing {c : Char} (spacing : isSpacing c = true) : isGapChar c = true := by
  -- Each of the four may stand before an `ELSE`.
  rcases eq_of_isSpacing spacing with rfl | rfl | rfl | rfl <;> rfl

/-- No layout starts a comment. -/
theorem hash_of_isSpacing {c : Char} (spacing : isSpacing c = true) : (c == '#') = false := by
  rcases eq_of_isSpacing spacing with rfl | rfl | rfl | rfl <;> rfl

section Gap

variable {gap text : List Char}

/-- Through layout, the last `ELSE` that is reached is the one right after it, if there is one. -/
theorem lastElse?_spacing (spacing : gap.all isSpacing = true)
    (seen : ∃ c rest, text = c :: rest ∧ isVisible c = true) :
    lastElse? false (gap ++ text) = if startsElse text then some text else none := by
  obtain ⟨c, rest, rfl, visible⟩ := seen
  obtain ⟨gapless, -, -, hashless⟩ := isVisible_iff visible
  -- The induction is on the layout, none of which starts an `ELSE`.
  induction gap with
  | nil =>
    -- A visible character is where the layout ends.
    have stops : elseContinues false c = none := by simp [elseContinues, gapless, hashless]
    rw [List.nil_append, lastElse?_cons, stops]
    rfl
  | cons d gap ih =>
    rw [List.all_cons, Bool.and_eq_true] at spacing
    have letter : startsElse (d :: (gap ++ c :: rest)) = false := by
      have other : d ≠ 'E' := by
        rintro rfl
        exact absurd spacing.1 (by decide)
      simp [startsElse_eq, List.isPrefixOf, Ne.symm other]
    have continues : elseContinues false d = some false := by
      simp [elseContinues, hash_of_isSpacing spacing.1, isGapChar_of_isSpacing spacing.1]
    rw [List.cons_append, lastElse?_cons, continues, Option.bind_some, ih spacing.2, letter]
    exact Option.or_none

/-- Blanks before anything else are dropped. -/
theorem dropInline_blanks (blanks : gap.all isInlineBlank = true) {c : Char}
    (blankless : isInlineBlank c = false) (hashless : (c == '#') = false) :
    dropInline false (gap ++ c :: text) = c :: text := by
  -- The induction is on the blanks, each of which is dropped.
  induction gap with
  | nil => simp [dropInline, blankless, hashless]
  | cons d gap ih =>
    rw [List.all_cons, Bool.and_eq_true] at blanks
    simpa [dropInline, blanks.1] using ih blanks.2

/-- Layout before a token is dropped with the gap before an `ELSE`, or else as far as the line
goes. -/
theorem skip_spacing (spacing : gap.all isSpacing = true)
    (seen : ∃ c rest, text = c :: rest ∧ isVisible c = true) :
    skip (gap ++ text) = if startsElse text then text else dropInline false (gap ++ text) := by
  cases gap with
  | nil =>
    -- Without any layout nothing is dropped.
    obtain ⟨c, rest, rfl, visible⟩ := seen
    obtain ⟨gapless, blankless, -, hashless⟩ := isVisible_iff visible
    simp [skip, afterElseGap?, gapless, dropInline, blankless, hashless]
  -- Some layout leads to an `ELSE` or to something else.
  | cons d gap =>
    rw [List.all_cons, Bool.and_eq_true] at spacing
    have reached : afterElseGap? (d :: (gap ++ text)) =
        if startsElse text then some text else none := by
      simp [afterElseGap?, hash_of_isSpacing spacing.1, isGapChar_of_isSpacing spacing.1,
        lastElse?_spacing spacing.2 seen]
    rw [skip, List.cons_append, reached]
    -- The two sides make the same choice.
    split <;> rfl

/-- Layout after a separator is dropped with it. -/
theorem dropLayout_spacing (spacing : gap.all isSpacing = true)
    (seen : ∃ c rest, text = c :: rest ∧ isVisible c = true) :
    dropLayout false (gap ++ text) = text := by
  induction gap with
  | nil =>
    obtain ⟨c, rest, rfl, visible⟩ := seen
    obtain ⟨gapless, -, spaceless, hashless⟩ := isVisible_iff visible
    -- A carriage return may stand before an `ELSE`, which a visible character may not.
    have unix : (c == '\r') = false := by
      rw [beq_eq_false_iff_ne]
      rintro rfl
      cases gapless
    simp only [isSpacing, isBreak, ← Bool.or_assoc] at spaceless
    simp [dropLayout, spaceless, hashless, unix]
  -- Each character of layout is dropped after a separator.
  | cons d gap ih =>
    rw [List.all_cons, Bool.and_eq_true] at spacing
    have dropped : (isInlineBlank d || d == '\n' || d == ';') = true := by
      simpa [isSpacing, isBreak, Bool.or_assoc] using spacing.1
    simpa [dropLayout, dropped] using ih spacing.2

/-- A line feed or a semicolon is read as a separator, with all layout after it. -/
theorem readToken?_separator {admits : TokenClass → Bool} {mark : Char}
    (admitted : admits .separator = true) (marks : isBreak mark = true)
    (spacing : gap.all isSpacing = true)
    (seen : ∃ c rest, text = c :: rest ∧ isVisible c = true) :
    readToken? admits (mark :: (gap ++ text)) = some (.separator, text) := by
  -- Only a separator can be read from such a character.
  have found : readToken? admits (mark :: (gap ++ text)) =
      [(Token.separator, dropLayout false (gap ++ text))].find?
        (fun found => admits found.1.tokenClass) := by
    have either : mark = '\n' ∨ mark = ';' := by simpa [isBreak] using marks
    rcases either with rfl | rfl <;> rfl
  rw [found, dropLayout_spacing spacing seen]
  exact List.find?_cons_of_pos admitted

end Gap

end Lexer

/-- What a text is read as does not depend on what is skipped at its start. -/
theorem Reads.of_skip {stage : Stage} {text text' : List Char} {program : Program}
    (reads : Reads stage text program) (same : skip text = skip text') :
    Reads stage text' program := by
  -- Reading starts by skipping, and looks at nothing before that.
  cases reads with
  | ended nothing complete => exact .ended (same ▸ nothing) complete
  | token read inRange step onward => exact .token (same ▸ read) inRange step onward

section Reading

variable {token : Token} {tokens marks : List Token} {gap text : List Char} {stage last : Stage}
  {program : Program}

/-- Blanks before a token are skipped. -/
theorem Spells.skip_blanks (spells : Spells (token :: tokens) text)
    (blanks : gap.all isInlineBlank = true) : skip (gap ++ text) = text := by
  rw [skip_spacing (Gap.inline blanks : Gap token gap []).spacing spells.visible]
  split
  · rfl
  · -- The blanks end before the first token, which starts with something visible.
    obtain ⟨c, rest, rfl, visible⟩ := spells.visible
    obtain ⟨-, blankless, -, hashless⟩ := isVisible_iff visible
    exact dropInline_blanks blanks blankless hashless

/-- A token without layout before it is where the text goes on. -/
theorem Spells.skip_self (spells : Spells (token :: tokens) text) : skip text = text :=
  @Spells.skip_blanks token tokens [] text spells rfl

/-- Layout before a token is read as the separator that it makes, or not at all. -/
theorem Gap.reads {middle : Stage} (between : Gap token gap marks)
    (spells : Spells (token :: tokens) text) (path : stage.Path marks middle)
    (onward : Reads middle text program) : Reads stage (gap ++ text) program := by
  cases between with
  | inline blanks =>
    -- Blanks make no token, so that the stage stays the same.
    cases path
    exact onward.of_skip (spells.skip_self.trans (spells.skip_blanks blanks).symm)
  | joined spacing same =>
    cases path
    refine onward.of_skip (spells.skip_self.trans ?_)
    -- All the layout before the `ELSE` is skipped with the gap.
    rw [skip_spacing spacing spells.visible, if_pos (spells.startsElse_iff.mpr same)]
  | broken spacing breaks other =>
    cases path with
    -- The separator is the one token that this layout makes.
    | cons takes rest =>
      cases rest
      -- The blanks before the mark are skipped, and the mark takes all layout after it.
      have skipped := skip_spacing spacing spells.visible
      rw [if_neg (mt spells.startsElse_iff.mp other)] at skipped
      obtain ⟨lead, mark, more, rfl, blanks, marked, spaced⟩ := exists_break spacing breaks
      obtain ⟨blankless, hashless⟩ : isInlineBlank mark = false ∧ (mark == '#') = false := by
        have either : mark = '\n' ∨ mark = ';' := by simpa [isBreak] using marked
        rcases either with rfl | rfl <;> exact ⟨rfl, rfl⟩
      rw [List.append_assoc, List.cons_append,
        dropInline_blanks blanks blankless hashless] at skipped
      refine .token ?_ takes.inRange takes.step onward
      rw [List.append_assoc, List.cons_append, skipped]
      exact readToken?_separator takes.admitted marked spaced spells.visible

/-- A text is read as the program to which the tokens lead that it spells. -/
theorem Spells.reads (spells : Spells tokens text) (path : stage.Path tokens last)
    (complete : last.program? = some program) : Reads stage text program := by
  -- Each token is read up to where it stops, and what follows it is layout or the next token.
  induction spells generalizing stage with
  | @last token writable =>
    cases path with
    -- The last token ends the text, and the program is complete there.
    | cons takes rest =>
      cases rest
      have read : readToken? stage.mode.admits (skip token.chars) = some (token, []) := by
        rw [(Spells.last writable).skip_self]
        simpa using @readToken?_chars token [] _ writable takes.admitted rfl
      exact .token read takes.inRange takes.step (.ended rfl complete)
  | @next token after marks tokens gap text writable stops between more ih =>
    cases path with
    | cons takes rest =>
      -- The path leads through the token, then the separator if there is any, then the others.
      obtain ⟨middle, first, second⟩ := rest.split
      refine .token ?_ takes.inRange takes.step (between.reads more first (ih second))
      rw [(Spells.next writable stops between more).skip_self]
      exact readToken?_chars writable takes.admitted stops

/-- Every token stops at layout. -/
theorem Token.stops_of_isSpacing (token : Token) {c : Char} (spacing : isSpacing c = true) :
    token.stops c = true := by
  unfold Token.stops
  -- What stops a token depends on its kind, and each kind stops at these four.
  rcases eq_of_isSpacing spacing with rfl | rfl | rfl | rfl <;> split <;> rfl

/-- Texts are spelled one after the other, with layout between them. -/
theorem Spells.append {front : List Token} {before : List Char} (first : Spells front before)
    (between : Gap token gap marks) (wide : gap ≠ []) (second : Spells (token :: tokens) text) :
    Spells (front ++ (marks ++ token :: tokens)) (before ++ (gap ++ text)) := by
  have stops : ∀ other : Token, (gap ++ text).head?.all other.stops = true := by
    intro other
    have spacing := between.spacing
    cases gap with
    | nil => exact absurd rfl wide
    | cons c gap =>
      rw [List.all_cons, Bool.and_eq_true] at spacing
      exact other.stops_of_isSpacing spacing.1
  induction first with
  | last writable => exact .next writable (stops _) between second
  | @next former after marks' tokens' gap' text' writable ends between' more ih =>
    -- What the former token stops at is still there.
    obtain ⟨c, rest, rfl, -⟩ := more.visible
    have ends' : (gap' ++ (c :: rest ++ (gap ++ text))).head?.all former.stops = true := by
      cases gap' <;> exact ends
    simpa using Spells.next writable ends' between' ih

/-- Tokens are spelled with a blank between every two of them. -/
theorem Spells.intercalate {tokens : List Token} (nonempty : tokens ≠ [])
    (writable : ∀ token ∈ tokens, token.Writable) :
    Spells tokens ([' '].intercalate (tokens.map Token.chars)) := by
  induction tokens with
  | nil => exact absurd rfl nonempty
  | cons token tokens ih =>
    have here : Spells [token] token.chars := .last (writable token List.mem_cons_self)
    cases tokens with
    | nil => simpa using here
    | cons after tokens =>
      have later := ih (List.cons_ne_nil _ _) fun other member =>
        writable other (List.mem_cons_of_mem _ member)
      have blank : Gap after [' '] [] := .inline rfl
      rw [List.map_cons, List.map_cons, List.intercalate_cons_cons, List.append_assoc]
      exact here.append blank (List.cons_ne_nil _ _) later

end Reading

end Pseudocode
