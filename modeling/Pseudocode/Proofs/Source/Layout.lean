import Pseudocode.Proofs.Source.Arrangement

/-! Layouts of a program: its statements in any arrangement, spelled in any way. Every layout is
read as the program. -/

namespace Pseudocode

/-! The word `CODE` closes a program, and stands in no arrangement. -/

section Free

variable {tokens : List Token}

/-- No part of an expression is the word. -/
theorem Written.free {level : Nat} {expr : Expr} (written : Written level expr tokens) :
    .keyword .code ∉ tokens :=
  -- What is written of an expression is writable, and the word is not.
  fun member => (written.writable _ member).2 rfl

/-- Nor is a separator. -/
theorem breaks_free (broken : Bool) : .keyword .code ∉ breaks broken := by
  -- A separator is another token.
  cases broken <;> simp [breaks]

/-- A body in its enclosure is free of the word, unless the body has it. -/
theorem Enclosure.around_free (enclosure : Enclosure) (word : Keyword) (other : word ≠ .code)
    (broken : Bool) {inner : List Token} (free : .keyword .code ∉ inner) :
    .keyword .code ∉ enclosure.around word broken inner := by
  -- The enclosure adds two words or two braces, and separators between them.
  cases enclosure with
  | words => simp [around, opening, closing, breaks_free, free, Ne.symm other]
  | braces inside => simp [around, opening, closing, breaks_free, free]

/-- A list is free of the word when all its items are. -/
theorem Listed.free {α : Type} {item : α → List Token → Prop} {items : List α}
    (listed : Listed item items tokens)
    (each : ∀ {a tokens}, item a tokens → .keyword .code ∉ tokens) : .keyword .code ∉ tokens := by
  induction listed with
  -- The last item has no comma after it.
  | last one => exact each one
  -- The comma between two items is no word.
  | more one _ ih => simp [each one, ih]

/-- The name of a target is not the word. -/
theorem Named.free {target : Target} (named : Named target tokens) : .keyword .code ∉ tokens := by
  -- A target is one token, and that is a name.
  cases named
  simp

/-- Declarators are free of the word, with an initial value or without one. -/
theorem Declared.free {declarator : Declarator} (declared : Declared declarator tokens) :
    .keyword .code ∉ tokens := by
  cases declared with
  -- A name is not the word, and the equals sign is no word at all.
  | bare => simp
  | initial _ written => simp [written.free]

/-- Targets with their equals signs are free of the word. -/
theorem Assigned.free {targets : List Target} (assigned : Assigned targets tokens) :
    .keyword .code ∉ tokens := by
  induction assigned with
  -- The equals sign after a target is no word.
  | last one => simp [one.free]
  | more one _ ih => simp [one.free, ih]

/-- A condition in its parentheses is free of the word. -/
theorem Tested.free {test : Expr} (tested : Tested test tokens) : .keyword .code ∉ tokens := by
  obtain ⟨written⟩ := tested
  -- Nor are the parentheses around a condition.
  simp [written.free]

mutual

/-- Whatever its arrangement, a statement is free of the word. -/
theorem Arranged.free {stmt : Stmt} {tokens : List Token} (arranged : Arranged stmt tokens) :
    .keyword .code ∉ tokens := by
  match arranged with
  | .declare listed => simp [listed.free Declared.free]
  | .assign assigned written => simp [assigned.free, written.free]
  -- The word after `BEGIN` and `END` is that of the statement.
  | .ifElse tested enclosure broken block other =>
    have within := enclosure.around_free .ifs (by decide) broken block.free
    simp [tested.free, within, other.free]
  | .repeatWhile tested enclosure broken block =>
    have within := enclosure.around_free .whiles (by decide) broken block.free
    simp [tested.free, within]
  | .switch tested enclosure broken clauses =>
    have within := enclosure.around_free .switches (by decide) broken clauses.free
    simp [tested.free, within]
  -- The words of the other statements are their own.
  | .breakOut => simp
  | .display written => simp [written.free]
  | .scan listed => simp [listed.free Named.free]

/-- Some statements are free of the word when each of them is. -/
theorem ArrangedAll.free {body : List Stmt} {tokens : List Token}
    (arranged : ArrangedAll body tokens) : .keyword .code ∉ tokens := by
  match arranged with
  -- The statements and the separators between them are free of it one by one.
  | .none => simp
  | .last one => exact one.free
  | .more one others => simp [one.free, others.free]

/-- What is done otherwise is free of the word. -/
theorem ArrangedOtherwise.free {otherwise : Otherwise} {tokens : List Token}
    (arranged : ArrangedOtherwise otherwise tokens) : .keyword .code ∉ tokens := by
  match arranged with
  | .nothing => simp
  -- `ELSE` is another word, and so is the one of a further condition.
  | .block enclosure broken block =>
    have within := enclosure.around_free .ifs (by decide) broken block.free
    simp [within]
  | .elseIf apart tested enclosure broken block other =>
    have within := enclosure.around_free .ifs (by decide) broken block.free
    simp [breaks_free, tested.free, within, other.free]

/-- The cases of a switch are free of the word. -/
theorem ArrangedCases.free {cases : List Case} {default : Option (List Stmt)} {tokens : List Token}
    (arranged : ArrangedCases cases default tokens) : .keyword .code ∉ tokens := by
  match arranged with
  | .none => simp
  | .default broken block => simp [breaks_free, block.free]
  | .more written broken block others =>
    simp [breaks_free, written.free, block.free, others.free]

end

end Free

/-- The layouts of a program's statements: an arrangement that ends in a separator, spelled before
that separator, with blanks, line feeds and semicolons before and after it at will. -/
inductive Layout (body : List Stmt) : String → Prop where
  | mk {tokens : List Token} {lead text tail : List Char}
    (arranged : ArrangedAll body (tokens ++ [.separator])) (spells : Spells tokens text)
    (before : lead.all isSpacing = true) (behind : tail.all isSpacing = true) :
    Layout body (String.ofList (lead ++ (text ++ tail)))

/-- A layout may start with its first token and end with its last. -/
theorem Layout.of_spells {body : List Stmt} {tokens : List Token} {text : List Char}
    (arranged : ArrangedAll body (tokens ++ [.separator])) (spells : Spells tokens text) :
    Layout body (String.ofList text) := by
  -- Nothing stands before and after the text.
  have laid := @Layout.mk body tokens [] text [] arranged spells rfl rfl
  rwa [List.append_nil] at laid

/-- Whatever the layout of the statements, a program of them is read. -/
theorem Layout.parseProgram_eq {body : List Stmt} {layout : String} (laid : Layout body layout) :
    parseProgram ("BEGIN CODE\n" ++ layout ++ "\nEND CODE") = .ok ⟨body⟩ := by
  obtain @⟨tokens, lead, text, tail, arranged, spells, before, behind⟩ := laid
  -- No line in between is taken for a boundary, as none has the word `CODE` for a token.
  have free : .keyword .code ∉ tokens :=
    fun member => arranged.free (List.mem_append_left _ member)
  have parsed := spells.parseProgram_framed free before behind arranged.program_path
  -- The text around the layout is that of a framed program, character by character.
  have source : "BEGIN CODE\n" ++ String.ofList (lead ++ (text ++ tail)) ++ "\nEND CODE" =
      String.ofList (framed (lead ++ (text ++ tail))) := by
    rw [← String.toList_inj]
    simp only [String.toList_append, String.toList_ofList]
    rfl
  rw [source]
  exact parsed

end Pseudocode
