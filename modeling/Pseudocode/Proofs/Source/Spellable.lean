import Pseudocode.Proofs.Source.Formula

/-! The programs that source text can spell: every arrangement of statements has a spelling, and
statements in the shape of the grammar have arrangements. Whichever is chosen is read back. -/

namespace Pseudocode

section Extends

/-- Some tokens can be spelled after any others. -/
def Extends (tokens : List Token) : Prop :=
  ∀ (front : List Token) (before : List Char), Spells front before →
    ∃ text, Spells (front ++ tokens) text

/-- Some tokens can be spelled first, or after a separator. -/
def Starts (tokens : List Token) : Prop :=
  ∃ first rest, tokens = first :: rest ∧ first.Writable ∧ first ≠ .keyword .elses ∧ Extends rest

variable {first second : List Token} {token : Token}

/-- No tokens are spelled by adding nothing. -/
theorem Extends.nil : Extends [] := by
  intro front before spells
  -- The text of the others stays as it is.
  exact ⟨before, by simpa using spells⟩

/-- What can be spelled after any tokens can be spelled after other such tokens. -/
theorem Extends.append (one : Extends first) (other : Extends second) :
    Extends (first ++ second) := by
  intro front before spells
  -- The second text is found for the tokens before it and those of the first.
  obtain ⟨middle, spells'⟩ := one front before spells
  obtain ⟨text, spells''⟩ := other _ middle spells'
  exact ⟨text, by simpa using spells''⟩

/-- A token that can be written can be spelled after any others, with what follows it. -/
theorem Extends.cons (writable : token.Writable) (rest : Extends second) :
    Extends (token :: second) := by
  intro front before spells
  -- Every token stops at a blank, whatever comes after it.
  have blank : Gap token [' '] [] := .inline rfl
  obtain ⟨text, spells'⟩ := rest _ _ (spells.append blank (List.cons_ne_nil _ _) (.last writable))
  exact ⟨text, by simpa using spells'⟩

/-- Tokens that can all be written can be spelled after any others. -/
theorem Extends.of_writable (writable : ∀ token ∈ first, token.Writable) : Extends first := by
  -- By induction on the tokens, since the gap between two of them depends on both.
  induction first with
  | nil => exact .nil
  | cons token rest ih =>
    exact .cons (writable token List.mem_cons_self)
      (ih fun other member => writable other (List.mem_cons_of_mem _ member))

/-- Tokens can be spelled first when the first of them is not `ELSE`. -/
theorem Starts.cons (writable : token.Writable) (other : token ≠ .keyword .elses)
    (rest : Extends second) : Starts (token :: second) :=
  ⟨token, second, rfl, writable, other, rest⟩

/-- What can be spelled first can also be spelled after other tokens. -/
theorem Starts.toExtends (starts : Starts first) : Extends first := by
  -- The first token is written after a blank.
  obtain ⟨token, rest, rfl, writable, -, rest⟩ := starts
  exact .cons writable rest

/-- What can be spelled first can be spelled after a separator. -/
theorem Starts.separated (starts : Starts first) : Extends (.separator :: first) := by
  obtain ⟨token, rest, rfl, writable, other, rest⟩ := starts
  intro front before spells
  -- A line feed before anything but `ELSE` is read as the separator.
  have feed : Gap token ['\n'] [.separator] := .broken rfl rfl other
  obtain ⟨text, spells'⟩ := rest _ _ (spells.append feed (List.cons_ne_nil _ _) (.last writable))
  exact ⟨text, by simpa using spells'⟩

/-- Whether or not there is a separator, what can be spelled first can come after it. -/
theorem Starts.broken (starts : Starts first) (broken : Bool) :
    Extends (breaks broken ++ first) := by
  -- With or without the separator something may follow.
  cases broken with
  | false => exact starts.toExtends
  | true => exact starts.separated

/-- Tokens that can be spelled first stay so when others follow. -/
theorem Starts.append (starts : Starts first) (rest : Extends second) :
    Starts (first ++ second) := by
  -- What is added goes to the tokens after the first one.
  obtain ⟨token, tokens, rfl, writable, other, after⟩ := starts
  exact .cons writable other (after.append rest)

/-- Tokens that can be spelled first have a spelling. -/
theorem Starts.spells (starts : Starts first) : ∃ text, Spells first text := by
  obtain ⟨token, rest, rfl, writable, -, rest⟩ := starts
  -- There is nothing before the first token, and so no gap.
  exact rest _ _ (.last writable)

end Extends

section Spelled

variable {tokens : List Token}

/-- What an expression is written as can be spelled after any tokens. -/
theorem Written.extends {level : Nat} {expr : Expr} (written : Written level expr tokens) :
    Extends tokens :=
  .of_writable fun token member => (written.writable token member).1

/-- A list can be spelled when all its items can. -/
theorem Listed.extends {α : Type} {item : α → List Token → Prop} {items : List α}
    (listed : Listed item items tokens)
    (each : ∀ {a tokens}, item a tokens → Extends tokens) : Extends tokens := by
  -- The items before the last one have a comma after them.
  induction listed with
  | last one => exact each one
  | more one _ ih => exact (each one).append (.cons trivial ih)

/-- The name of a target can be spelled first. -/
theorem Named.starts {target : Target} (named : Named target tokens) : Starts tokens := by
  -- A name is no keyword, and so it is not `ELSE`.
  obtain ⟨identifier⟩ := named
  exact .cons identifier (by simp) .nil

/-- A declarator can be spelled after any tokens. -/
theorem Declared.extends {declarator : Declarator} (declared : Declared declarator tokens) :
    Extends tokens := by
  cases declared with
  | bare identifier => exact .cons identifier .nil
  | initial identifier written => exact .cons identifier (.cons trivial written.extends)

/-- Targets with their equals signs can be spelled first, since the first of them can. -/
theorem Assigned.starts {targets : List Target} (assigned : Assigned targets tokens) :
    Starts tokens := by
  induction assigned with
  | last one => exact one.starts.append (.cons trivial .nil)
  | more one _ ih => exact one.starts.append (.cons trivial ih.toExtends)

/-- A condition in its parentheses can be spelled after any tokens. -/
theorem Tested.extends {test : Expr} (tested : Tested test tokens) : Extends tokens := by
  -- The condition stands between its parentheses.
  obtain ⟨written⟩ := tested
  exact .cons trivial (written.extends.append (.cons trivial .nil))

/-- A body can be spelled in its enclosure when it can be spelled before what closes it. -/
theorem Enclosure.around_extends (enclosure : Enclosure) (word : Keyword) (broken : Bool)
    {inner : List Token} (within : ∀ back, Starts back → Starts (inner ++ back)) :
    Extends (enclosure.around word broken inner) := by
  -- What closes the body can always be spelled first, and then so can all that is before it.
  cases enclosure with
  | words =>
    have closed : Starts (inner ++ [.keyword .ends, .keyword word]) :=
      within _ (.cons trivial (by decide) (.cons trivial .nil))
    have opened : Starts (.keyword .begins :: .keyword word :: .separator ::
        (inner ++ [.keyword .ends, .keyword word])) :=
      .cons trivial (by decide) (.cons trivial closed.separated)
    exact opened.broken broken
  | braces inside =>
    have closed : Starts (inner ++ [.rightBrace]) := within _ (.cons trivial (by decide) .nil)
    have opened : Starts (.leftBrace :: (breaks inside ++ (inner ++ [.rightBrace]))) :=
      .cons trivial (by decide) (closed.broken inside)
    exact opened.broken broken

mutual

/-- Every arrangement of a statement can be spelled. -/
theorem Arranged.starts {stmt : Stmt} {tokens : List Token} (arranged : Arranged stmt tokens) :
    Starts tokens := by
  match arranged with
  -- A statement starts with its own word or with a target, and neither is `ELSE`.
  | .declare listed => exact .cons trivial (by simp) (listed.extends Declared.extends)
  | .assign assigned written => exact assigned.starts.append written.extends
  | .ifElse tested enclosure broken block other =>
    have within := enclosure.around_extends .ifs broken block.starts
    exact .cons trivial (by decide) (tested.extends.append (within.append other.extends))
  | .repeatWhile tested enclosure broken block =>
    have within := enclosure.around_extends .whiles broken block.starts
    exact .cons trivial (by decide) (tested.extends.append within)
  | .switch tested enclosure broken clauses =>
    have within := enclosure.around_extends .switches broken clauses.starts
    exact .cons trivial (by decide) (tested.extends.append within)
  | .breakOut => exact .cons trivial (by decide) .nil
  | .display written => exact .cons trivial (by decide) (.cons trivial written.extends)
  | .scan listed =>
    have names := listed.extends fun named => named.starts.toExtends
    exact .cons trivial (by decide) (.cons trivial names)

/-- Every arrangement of some statements can be spelled before what can be spelled first. -/
theorem ArrangedAll.starts {body : List Stmt} {tokens : List Token}
    (arranged : ArrangedAll body tokens) (back : List Token) (after : Starts back) :
    Starts (tokens ++ back) := by
  -- The separator between two statements needs one that can be spelled first after it.
  match arranged with
  | .none => exact after
  | .last one => exact one.starts.append after.toExtends
  | .more one others =>
    rw [List.append_assoc]
    exact one.starts.append (others.starts back after).separated

/-- Every arrangement of what is done otherwise can be spelled after the condition. -/
theorem ArrangedOtherwise.extends {otherwise : Otherwise} {tokens : List Token}
    (arranged : ArrangedOtherwise otherwise tokens) : Extends tokens := by
  match arranged with
  | .nothing => exact .nil
  | .block enclosure broken block =>
    -- `ELSE` goes on from the text before it, and so it cannot be spelled first.
    exact .cons trivial (enclosure.around_extends .ifs broken block.starts)
  | .elseIf apart tested enclosure broken block other =>
    -- A separator may stand between the two words.
    have within := enclosure.around_extends .ifs broken block.starts
    have test : Starts (.keyword .ifs :: _) :=
      .cons trivial (by decide) (tested.extends.append (within.append other.extends))
    exact .cons trivial (test.broken apart)

/-- Every arrangement of cases can be spelled before what can be spelled first. -/
theorem ArrangedCases.starts {cases : List Case} {default : Option (List Stmt)}
    {tokens : List Token} (arranged : ArrangedCases cases default tokens) (back : List Token)
    (after : Starts back) : Starts (tokens ++ back) := by
  match arranged with
  -- The default comes last, with its own colon.
  | .none => exact after
  | .default broken block =>
    have within := (block.starts back after).broken broken
    rw [← List.append_assoc] at within
    exact .cons trivial (by decide) (.cons trivial within)
  | .more written broken block others =>
    have within := (block.starts _ (others.starts back after)).broken broken
    have colon : Extends (.colon :: _) := .cons trivial within
    exact .cons trivial (by decide) (by simpa using written.extends.append colon)

end

end Spelled

/-- An expression that source text can spell. -/
def Expr.Spellable (expr : Expr) : Prop :=
  ∃ formula : Formula, formula.toExpr = expr

/-- A target that source text can name: an identifier. -/
def Target.Spellable (target : Target) : Prop :=
  ∃ spelling, IsIdentifier spelling ∧ target = .ofName (String.ofList spelling)

/-- A declared name that source text can spell, with its initial value. -/
def Declarator.Spellable (declarator : Declarator) : Prop :=
  declarator.name.Spellable ∧ ∀ expr ∈ declarator.initial, expr.Spellable

mutual

/-- A statement in the shape of the grammar. -/
def Stmt.Spellable : Stmt → Prop
  -- Types are those of the language, and at least one name is declared.
  | .declare typing declarators =>
    (∃ type, typing = .known type) ∧ declarators ≠ [] ∧
      ∀ declarator ∈ declarators, declarator.Spellable
  | .assign targets value =>
    targets ≠ [] ∧ (∀ target ∈ targets, target.Spellable) ∧ value.Spellable
  | .ifElse test body otherwise => test.Spellable ∧ bodySpellable body ∧ otherwise.Spellable
  | .repeatWhile test body => test.Spellable ∧ bodySpellable body
  | .switch subject cases none => subject.Spellable ∧ casesSpellable cases
  | .switch subject cases (some body) =>
    subject.Spellable ∧ casesSpellable cases ∧ bodySpellable body
  | .breakOut => True
  | .display value => value.Spellable
  | .scan names => names ≠ [] ∧ ∀ name ∈ names, name.Spellable
  -- Source text has no words for these.
  | .stray _ | .noBlock _ => False

/-- What is done otherwise, in the shape of the grammar. -/
def Otherwise.Spellable : Otherwise → Prop
  | .nothing => True
  | .block body => bodySpellable body
  | .elseIf test body otherwise => test.Spellable ∧ bodySpellable body ∧ otherwise.Spellable

/-- Some statements in the shape of the grammar. -/
def bodySpellable : List Stmt → Prop
  | [] => True
  | stmt :: rest => stmt.Spellable ∧ bodySpellable rest

/-- The cases of a switch, in the shape of the grammar. -/
def casesSpellable : List Case → Prop
  | [] => True
  | .mk value body :: rest => value.Spellable ∧ bodySpellable body ∧ casesSpellable rest

end

section Exists

/-- An expression that can be spelled is written with parentheses around every operator. -/
theorem Expr.Spellable.exists_written {expr : Expr} (spellable : expr.Spellable) :
    ∃ tokens, Written 0 expr tokens := by
  -- Parentheses around every operator are always enough.
  obtain ⟨formula, rfl⟩ := spellable
  obtain ⟨tokens, enclosed⟩ := formula.exists_enclosed
  exact ⟨tokens, enclosed.written 0⟩

/-- A target that can be spelled has a name for a token. -/
theorem Target.Spellable.exists_named {target : Target} (spellable : target.Spellable) :
    ∃ tokens, Named target tokens := by
  obtain ⟨spelling, identifier, rfl⟩ := spellable
  exact ⟨[.name spelling], .mk identifier⟩

/-- A declared name that can be spelled has tokens, and so have those with a value. -/
theorem Declarator.Spellable.exists_declared {declarator : Declarator}
    (spellable : declarator.Spellable) : ∃ tokens, Declared declarator tokens := by
  obtain ⟨name, initial⟩ := declarator
  obtain ⟨⟨spelling, identifier, same⟩, values⟩ := spellable
  change name = _ at same
  -- The name that is declared is spelled as an identifier.
  subst same
  cases initial with
  | none => exact ⟨_, .bare identifier⟩
  | some value =>
    obtain ⟨tokens, written⟩ := (values value rfl).exists_written
    exact ⟨_, .initial identifier written⟩

/-- Items that have tokens of their own have them with commas too. -/
theorem Listed.exists {α : Type} {item : α → List Token → Prop} {items : List α}
    (nonempty : items ≠ []) (each : ∀ a ∈ items, ∃ tokens, item a tokens) :
    ∃ tokens, Listed item items tokens := by
  -- The last item has no comma after it, so that the list is looked at one item ahead.
  induction items with
  | nil => exact absurd rfl nonempty
  | cons a rest ih =>
    obtain ⟨tokens, one⟩ := each a List.mem_cons_self
    cases rest with
    | nil => exact ⟨tokens, .last one⟩
    | cons b rest =>
      obtain ⟨after, others⟩ := ih (List.cons_ne_nil _ _) fun other member =>
        each other (List.mem_cons_of_mem _ member)
      exact ⟨_, .more one others⟩

/-- Targets that can be spelled have tokens with equals signs after each of them. -/
theorem Assigned.exists {targets : List Target} (nonempty : targets ≠ [])
    (each : ∀ target ∈ targets, target.Spellable) : ∃ tokens, Assigned targets tokens := by
  induction targets with
  | nil => exact absurd rfl nonempty
  | cons target rest ih =>
    -- The first target is followed by its equals sign.
    obtain ⟨tokens, one⟩ := (each target List.mem_cons_self).exists_named
    cases rest with
    | nil => exact ⟨_, .last one⟩
    | cons other rest =>
      obtain ⟨after, others⟩ := ih (List.cons_ne_nil _ _) fun other member =>
        each other (List.mem_cons_of_mem _ member)
      exact ⟨_, .more one others⟩

-- Of the arrangements, the one with braces around every body and with no separator that may be
-- missing.
mutual

/-- A statement in the shape of the grammar has an arrangement. -/
theorem Stmt.Spellable.exists_arranged {stmt : Stmt} (spellable : stmt.Spellable) :
    ∃ tokens, Arranged stmt tokens := by
  -- Each form of statement has the tokens of its parts, put together with its own words.
  match stmt with
  | .declare typing declarators =>
    simp only [Stmt.Spellable] at spellable
    obtain ⟨⟨type, rfl⟩, nonempty, each⟩ := spellable
    obtain ⟨tokens, listed⟩ := Listed.exists nonempty fun declarator member =>
      (each declarator member).exists_declared
    exact ⟨_, .declare listed⟩
  | .assign targets value =>
    simp only [Stmt.Spellable] at spellable
    obtain ⟨nonempty, each, expr⟩ := spellable
    obtain ⟨names, assigned⟩ := Assigned.exists nonempty each
    obtain ⟨tokens, written⟩ := expr.exists_written
    exact ⟨_, .assign assigned written⟩
  | .ifElse test body otherwise =>
    simp only [Stmt.Spellable] at spellable
    obtain ⟨expr, all, other⟩ := spellable
    obtain ⟨tokens, written⟩ := expr.exists_written
    obtain ⟨inner, block⟩ := bodySpellable.exists_arranged all
    obtain ⟨alternative, other⟩ := other.exists_arranged
    exact ⟨_, .ifElse (.mk written) (.braces false) false block other⟩
  | .repeatWhile test body =>
    simp only [Stmt.Spellable] at spellable
    obtain ⟨expr, all⟩ := spellable
    obtain ⟨tokens, written⟩ := expr.exists_written
    obtain ⟨inner, block⟩ := bodySpellable.exists_arranged all
    exact ⟨_, .repeatWhile (.mk written) (.braces false) false block⟩
  | .switch subject cases none =>
    simp only [Stmt.Spellable] at spellable
    obtain ⟨expr, all⟩ := spellable
    obtain ⟨tokens, written⟩ := expr.exists_written
    obtain ⟨inner, clauses⟩ := casesSpellable.exists_arranged all .none
    exact ⟨_, .switch (.mk written) (.braces false) false clauses⟩
  | .switch subject cases (some body) =>
    simp only [Stmt.Spellable] at spellable
    obtain ⟨expr, all, last⟩ := spellable
    obtain ⟨tokens, written⟩ := expr.exists_written
    obtain ⟨inner, block⟩ := bodySpellable.exists_arranged last
    obtain ⟨inner, clauses⟩ := casesSpellable.exists_arranged all (.default false block)
    exact ⟨_, .switch (.mk written) (.braces false) false clauses⟩
  | .breakOut => exact ⟨_, .breakOut⟩
  | .display value =>
    simp only [Stmt.Spellable] at spellable
    obtain ⟨tokens, written⟩ := spellable.exists_written
    exact ⟨_, .display written⟩
  | .scan names =>
    simp only [Stmt.Spellable] at spellable
    obtain ⟨nonempty, each⟩ := spellable
    obtain ⟨tokens, listed⟩ := Listed.exists nonempty fun name member =>
      (each name member).exists_named
    exact ⟨_, .scan listed⟩
  -- These have no shape in the grammar.
  | .stray _ | .noBlock _ => simp only [Stmt.Spellable] at spellable

/-- What is done otherwise, in the shape of the grammar, has an arrangement. -/
theorem Otherwise.Spellable.exists_arranged {otherwise : Otherwise}
    (spellable : otherwise.Spellable) : ∃ tokens, ArrangedOtherwise otherwise tokens := by
  match otherwise with
  | .nothing => exact ⟨_, .nothing⟩
  | .block body =>
    simp only [Otherwise.Spellable] at spellable
    obtain ⟨inner, block⟩ := bodySpellable.exists_arranged spellable
    exact ⟨_, .block (.braces false) false block⟩
  | .elseIf test body otherwise =>
    simp only [Otherwise.Spellable] at spellable
    obtain ⟨expr, all, other⟩ := spellable
    obtain ⟨tokens, written⟩ := expr.exists_written
    obtain ⟨inner, block⟩ := bodySpellable.exists_arranged all
    obtain ⟨alternative, other⟩ := other.exists_arranged
    exact ⟨_, .elseIf false (.mk written) (.braces false) false block other⟩

/-- Statements in the shape of the grammar have an arrangement. -/
theorem bodySpellable.exists_arranged {body : List Stmt} (spellable : bodySpellable body) :
    ∃ tokens, ArrangedAll body tokens := by
  match body with
  -- No statements need no tokens.
  | [] => exact ⟨[], .none⟩
  | stmt :: rest =>
    simp only [bodySpellable] at spellable
    obtain ⟨tokens, one⟩ := spellable.1.exists_arranged
    obtain ⟨after, others⟩ := bodySpellable.exists_arranged spellable.2
    exact ⟨_, .more one others⟩

/-- Cases in the shape of the grammar have an arrangement before the default. -/
theorem casesSpellable.exists_arranged {cases : List Case} (spellable : casesSpellable cases)
    {default : Option (List Stmt)} {last : List Token} (ending : ArrangedCases [] default last) :
    ∃ tokens, ArrangedCases cases default tokens := by
  match cases with
  -- The default, or nothing, comes after all cases.
  | [] => exact ⟨last, ending⟩
  | .mk value body :: rest =>
    simp only [casesSpellable] at spellable
    obtain ⟨expr, all, others⟩ := spellable
    obtain ⟨tokens, written⟩ := expr.exists_written
    obtain ⟨inner, block⟩ := bodySpellable.exists_arranged all
    obtain ⟨after, others⟩ := casesSpellable.exists_arranged others ending
    exact ⟨_, .more written false block others⟩

end

/-- Statements have an arrangement in which the last of them has a separator after it. -/
theorem bodySpellable.exists_separated {body : List Stmt} (spellable : bodySpellable body)
    (nonempty : body ≠ []) :
    ∃ tokens, ArrangedAll body (tokens ++ [.separator]) ∧ Starts tokens := by
  induction body with
  | nil => exact absurd rfl nonempty
  | cons stmt rest ih =>
    simp only [bodySpellable] at spellable
    obtain ⟨tokens, one⟩ := spellable.1.exists_arranged
    cases rest with
    | nil =>
      -- The separator after the last statement is the one with which a list may end.
      exact ⟨tokens, .more one .none, one.starts⟩
    | cons next rest =>
      -- The separator is carried to the end of the tokens of the statements that follow.
      obtain ⟨after, others, starts⟩ := ih spellable.2 (List.cons_ne_nil _ _)
      have whole := ArrangedAll.more one others
      rw [← List.cons_append, ← List.append_assoc] at whole
      exact ⟨_, whole, one.starts.append starts.separated⟩

end Exists

/-- Statements in the shape of the grammar have layouts, and whichever is chosen, the program is
read with these statements. -/
theorem parseProgram_layout (body : List Stmt) (nonempty : body ≠ [])
    (spellable : bodySpellable body) :
    (∃ layout, Layout body layout) ∧ ∀ layout, Layout body layout →
      parseProgram ("BEGIN CODE\n" ++ layout ++ "\nEND CODE") = .ok ⟨body⟩ := by
  constructor
  · -- One arrangement is enough, spelled with single blanks and line feeds.
    obtain ⟨tokens, arranged, starts⟩ := spellable.exists_separated nonempty
    obtain ⟨text, spells⟩ := starts.spells
    exact ⟨_, .of_spells arranged spells⟩
  · intro layout laid
    -- The other way is open to every layout.
    exact laid.parseProgram_eq

/-- A layout with keywords around one body and braces around the other, and with separators where
they need not stand, one before `ELSE` among them. -/
theorem parseProgram_layout_mixed :
    Layout [.ifElse (.ident (.name "x")) [.display (.ident (.name "x"))] (.block [])]
        "IF (x)\nBEGIN IF \n; DISPLAY: x ;\nEND IF ;\nELSE ;\x7b\n\x7d" ∧
      parseProgram ("BEGIN CODE\n" ++
          "IF (x)\nBEGIN IF \n; DISPLAY: x ;\nEND IF ;\nELSE ;\x7b\n\x7d" ++ "\nEND CODE") =
        .ok ⟨[.ifElse (.ident (.name "x")) [.display (.ident (.name "x"))] (.block [])]⟩ := by
  -- A name is an identifier when it is no keyword.
  have x : IsIdentifier ['x'] := by
    refine ⟨rfl, rfl, fun keyword => ?_⟩
    cases keyword with
    | type word | logic word => cases word <;> decide
    | _ => decide
  have spellable : bodySpellable
      [.ifElse (.ident (.name "x")) [.display (.ident (.name "x"))] (.block [])] := by
    -- The text holds one name, and no other expression.
    have name : Expr.Spellable (.ident (.name "x")) := ⟨.atom (.name ['x'] x), rfl⟩
    simp [bodySpellable, Stmt.Spellable, Otherwise.Spellable, name]
  have written : Written 0 (.ident (.name "x")) [.name ['x']] := .leaf (.name ['x'] x)
  -- The first body is enclosed in keywords, the second in braces.
  have arranged := ArrangedAll.more (.ifElse (.mk written) .words true
    (.more (.display written) .none) (.block (.braces true) true .none)) .none
  -- The text is put together from its end.
  have braces := @Spells.next .leftBrace .rightBrace [.separator] _ "\n".toList _ trivial rfl
    (.broken rfl rfl (by decide)) (.last trivial)
  have other := @Spells.next (.keyword .elses) .leftBrace [.separator] _ " ;".toList _ trivial rfl
    (.broken rfl rfl (by decide)) braces
  have ended := @Spells.next (.keyword .ends) (.keyword .ifs) [] _ " ".toList _ trivial rfl
    (.inline rfl) (@Spells.next (.keyword .ifs) (.keyword .elses) [] _ " ;\n".toList _ trivial rfl
      -- The body of the condition is spelled with a separator on either side.
      (.joined rfl rfl) other)
  have shown := @Spells.next (.keyword .display) .colon [] _ [] _ trivial rfl (.inline rfl)
    (@Spells.next .colon (.name ['x']) [] _ " ".toList _ trivial rfl (.inline rfl)
      (@Spells.next (.name ['x']) (.keyword .ends) [.separator] _ " ;\n".toList _ x rfl
        (.broken rfl rfl (by decide)) ended))
  have begun := @Spells.next (.keyword .begins) (.keyword .ifs) [] _ " ".toList _ trivial rfl
    (.inline rfl) (@Spells.next (.keyword .ifs) (.keyword .display) [.separator] _ " \n; ".toList _
      trivial rfl (.broken rfl rfl (by decide)) shown)
  have tested := @Spells.next .leftParen (.name ['x']) [] _ [] _ trivial rfl (.inline rfl)
    (@Spells.next (.name ['x']) .rightParen [] _ [] _ x rfl (.inline rfl)
      (@Spells.next .rightParen (.keyword .begins) [.separator] _ "\n".toList _ trivial rfl
        (.broken rfl rfl (by decide)) begun))
  have spells := @Spells.next (.keyword .ifs) .leftParen [] _ " ".toList _ trivial rfl (.inline rfl)
    tested
  have laid := Layout.of_spells arranged spells
  -- The layout is one of those that the theorem is about.
  exact ⟨laid, (parseProgram_layout _ (List.cons_ne_nil _ _) spellable).2 _ laid⟩

end Pseudocode
