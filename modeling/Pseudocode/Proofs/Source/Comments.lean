import Pseudocode.Proofs.Source.CommentBoundary

/-! Comments and the meaning of a program: which comments can be put at the end of any line. -/

namespace Pseudocode

namespace Lexer

/-- What is left after the gap before an `ELSE` starts with the word. -/
theorem startsElse_of_lastElse? {inComment : Bool} {text rest : List Char}
    (found : lastElse? inComment text = some rest) : startsElse rest = true := by
  induction text generalizing inComment with
  | nil => cases found
  | cons c text ih =>
    -- The word is found further on, or else it stands right here.
    rw [lastElse?_cons, Option.or_eq_some_iff] at found
    rcases found with further | ⟨-, here⟩
    · obtain ⟨inside, -, later⟩ := Option.bind_eq_some_iff.mp further
      exact ih later
    · split at here
      · rename_i starts
        exact Option.some.inj here ▸ starts
      · cases here

/-- A comment that holds the word is one where the gap before an `ELSE` may end. -/
theorem exists_lastElse?_of_holdsElse {comment after : List Char} (line : '\n' ∉ comment)
    (holds : holdsElse comment = true) :
    ∃ rest, lastElse? true (comment ++ '\n' :: after) = some rest := by
  induction comment with
  | nil => cases holds
  | cons c comment ih =>
    simp only [List.mem_cons, not_or] at line
    -- The search goes on through a comment up to the end of its line.
    have continues : elseContinues true c = some true := by
      simp [elseContinues, Ne.symm line.1]
    have here : startsElse (c :: (comment ++ '\n' :: after)) = startsElse (c :: comment) := by
      rw [← List.cons_append, startsElse_append _ _ (by decide)]
    rw [List.cons_append, lastElse?_cons, continues, here, Option.bind_some]
    simp only [holdsElse, Bool.or_eq_true] at holds
    cases later : lastElse? true (comment ++ '\n' :: after) with
    | some rest => exact ⟨rest, rfl⟩
    | none =>
      -- Nothing is reached further on, so that the word stands here.
      rcases holds with starts | further
      · exact ⟨c :: (comment ++ '\n' :: after), by simp [starts]⟩
      · obtain ⟨rest, found⟩ := ih line.2 further
        simp [later] at found

/-- Of all keywords, only `ELSE` is what a text that starts with it starts with. -/
theorem eq_elses_of_isPrefixOf {keyword : Keyword} {rest : List Char}
    (starts : keyword.spelling.toList.isPrefixOf ('E' :: 'L' :: 'S' :: 'E' :: rest) = true) :
    keyword = .elses := by
  cases keyword with
  | elses => rfl
  | logic op => cases op <;> cases starts
  | type varType => cases varType <;> cases starts
  | _ => cases starts

/-- No token but the word itself is read where the word `ELSE` stands and no name may. -/
theorem readToken?_else {admits : TokenClass → Bool} {text : List Char}
    (starts : startsElse text = true) (nameless : admits .name = false)
    (refused : admits (.keyword .elses) = false) : readToken? admits text = none := by
  unfold startsElse at starts
  split at starts
  · rename_i rest
    have word : (('E' :: 'L' :: 'S' :: 'E' :: rest).head?.map isNameStart).getD false = true := rfl
    rw [readToken?, if_pos word, readWord?, nameless, if_neg Bool.false_ne_true,
      Option.map_eq_none_iff, List.find?_eq_none]
    -- A keyword would have to be `ELSE` itself, and that is not expected.
    intro keyword _ chosen
    obtain ⟨spelled, admitted⟩ := Bool.and_eq_true_iff.mp chosen
    obtain rfl := eq_elses_of_isPrefixOf spelled
    simp [refused] at admitted
  · cases starts

end Lexer

/-- A text is read as a program only after the step that its first token leads to. -/
theorem Reads.after_step {stage next : Stage} {text rest : List Char} {token : Token}
    {program : Program} (reads : Reads stage text program)
    (read : Lexer.readToken? stage.mode.admits (Lexer.skip text) = some (token, rest))
    (step : stage.step token = some next) : Reads next rest program := by
  -- What is read and where it leads are functions of the stage and the text.
  cases reads with
  | ended nothing => exact absurd nothing (Lexer.skip_ne_nil_of_readToken? read)
  | token read' _ step' onward =>
    obtain ⟨rfl, rfl⟩ := Prod.mk.inj (Option.some.inj (read.symm.trans read'))
    exact Option.some.inj (step.symm.trans step') ▸ onward

/-- A harmless comment at the end of a line of a program leaves the program as it is. -/
theorem parseProgram_commented {before after comment : String} {program : Program}
    (unix : '\r' ∉ before.toList) (unbroken : ∀ c ∈ comment.toList, isLineEnd c = false)
    (harmless : Lexer.Harmless comment.toList after.toList)
    (accepted : parseProgram (before ++ "\n" ++ after) = .ok program) :
    parseProgram (before ++ " #" ++ comment ++ "\n" ++ after) = .ok program := by
  have line : '\n' ∉ comment.toList := fun member => absurd (unbroken '\n' member) (by decide)
  -- Both texts are written as lists of characters, with the comment before the line feed.
  have plain : (before ++ "\n" ++ after).toList = before.toList ++ '\n' :: after.toList := by simp
  have other : (before ++ " #" ++ comment ++ "\n" ++ after).toList =
      Lexer.commented before.toList comment.toList after.toList := by simp [Lexer.commented]
  rw [parseProgram_eq_ok_iff, plain] at accepted
  rw [parseProgram_eq_ok_iff, other, ← checkBoundaries_commented unbroken unix]
  exact ⟨accepted.1, accepted.2.of_alike line harmless (.apart unix)⟩

/-- A comment that holds the word `ELSE` keeps every program from going on after its first line. -/
theorem not_reads_commented_opening {comment after : List Char} {program : Program}
    (line : '\n' ∉ comment) (holds : Lexer.holdsElse comment = true) :
    ¬ Reads .initial (Lexer.commented "BEGIN CODE".toList comment after) program := by
  intro reads
  have begun : Reads ⟨.openingWord, []⟩ (Lexer.commented " CODE".toList comment after) program :=
    reads.after_step rfl rfl
  have opened : Reads ⟨.openingBreak, []⟩ (Lexer.commented [] comment after) program :=
    begun.after_step rfl rfl
  obtain ⟨rest, found⟩ : ∃ rest, Lexer.lastElse? true (comment ++ '\n' :: after) = some rest :=
    Lexer.exists_lastElse?_of_holdsElse line holds
  have starts : Lexer.startsElse rest = true := Lexer.startsElse_of_lastElse? found
  -- The gap after the first line ends within the comment.
  have skipped : Lexer.skip (Lexer.commented [] comment after) = rest := by
    have gap : Lexer.lastElse? false ('#' :: (comment ++ '\n' :: after)) = some rest := by
      have continues : Lexer.elseContinues false '#' = some true := rfl
      rw [Lexer.lastElse?_cons, continues, Option.bind_some, found, Option.some_or]
    exact congrArg (Option.getD · _) gap
  -- The reading neither ends here nor goes on: the word is no line end.
  cases opened with
  | ended nothing =>
    rw [← skipped, nothing] at starts
    cases starts
  | token read =>
    rw [skipped, Lexer.readToken?_else starts rfl rfl] at read
    cases read

/-- A comment that carries no meaning: put at the end of any line of any source text, it leaves the
program that the text is read as. -/
def Silent (comment : String) : Prop :=
  ∀ (before after : String) (program : Program), '\r' ∉ (before ++ "\n" ++ after).toList →
    parseProgram (before ++ "\n" ++ after) = .ok program →
    parseProgram (before ++ " #" ++ comment ++ "\n" ++ after) = .ok program

/-- The comments that carry no meaning are those without the word `ELSE`. -/
theorem silent_iff_not_holdsElse (comment : String)
    (unbroken : ∀ c ∈ comment.toList, isLineEnd c = false) :
    Silent comment ↔ Lexer.holdsElse comment.toList = false := by
  constructor
  · intro law
    rw [Bool.eq_false_iff]
    intro holds
    have line : '\n' ∉ comment.toList := fun member => absurd (unbroken '\n' member) (by decide)
    -- A short program is accepted, but not with the comment on its first line.
    obtain ⟨program, accepted⟩ :
        ∃ program, parseProgram ("BEGIN CODE" ++ "\n" ++ "DISPLAY: 1\nEND CODE") = .ok program :=
      ⟨_, rfl⟩
    have again := law "BEGIN CODE" "DISPLAY: 1\nEND CODE" program (by decide) accepted
    have other : ("BEGIN CODE" ++ " #" ++ comment ++ "\n" ++ "DISPLAY: 1\nEND CODE").toList =
        Lexer.commented "BEGIN CODE".toList comment.toList "DISPLAY: 1\nEND CODE".toList := by
      simp [Lexer.commented]
    rw [parseProgram_eq_ok_iff, other] at again
    exact not_reads_commented_opening line holds again.2
  · intro free before after program unix accepted
    have unix' : '\r' ∉ before.toList := fun member => unix (by simp [member])
    exact parseProgram_commented unix' unbroken (.inl free) accepted

/-- A remark that names the other branch is a comment with a meaning. -/
theorem not_silent_or_else : ¬ Silent " this OR ELSE that" := by
  rw [silent_iff_not_holdsElse " this OR ELSE that" (by simp [isLineEnd])]
  decide

end Pseudocode
