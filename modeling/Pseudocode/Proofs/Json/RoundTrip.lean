import Pseudocode.Proofs.Json.Scalars

/-! JSON data that is written as text is read back as it was. -/

namespace Pseudocode

namespace Json

/-- A text is cut into tokens, with as many of them allowed as it has characters. -/
def Lexes (text : List Char) (tokens : List Token) : Prop :=
  ∀ fuel, text.length ≤ fuel → tokensWithin fuel text = some tokens

/-- No token starts with a space. -/
theorem readToken_space {c : Char} (blank : isSpace c = true) (rest : List Char) :
    readToken (c :: rest) = none := by
  -- There are four characters that may stand between tokens.
  have cases : c = ' ' ∨ c = '\t' ∨ c = '\n' ∨ c = '\r' := by
    simpa [isSpace, or_assoc] using blank
  rcases cases with rfl | rfl | rfl | rfl <;> rfl

namespace Lexes

variable {text rest : List Char} {tokens : List Token} {token : Token}

/-- Nothing has no tokens. -/
theorem nil : Lexes [] [] := by
  intro fuel _
  unfold tokensWithin
  rfl

/-- Spaces in front are passed over. -/
theorem spaces (blank : text.all isSpace = true) (lexes : Lexes rest tokens) :
    Lexes (text ++ rest) tokens := by
  intro fuel enough
  have same : (text ++ rest).dropWhile isSpace = rest.dropWhile isSpace :=
    List.dropWhile_append_of_pos (List.all_eq_true.mp blank)
  -- The text after the spaces is shorter, so that as much is enough for it.
  have read := lexes fuel (by simp at enough; omega)
  -- The first thing that a reader of tokens does is to drop spaces.
  unfold tokensWithin at read ⊢
  rwa [same]

/-- A token in front is read first. -/
theorem append (nonempty : text ≠ []) (read : readToken (text ++ rest) = some (token, rest))
    (lexes : Lexes rest tokens) : Lexes (text ++ rest) (token :: tokens) := by
  obtain ⟨c, text, rfl⟩ := List.exists_cons_of_ne_nil nonempty
  intro fuel enough
  cases fuel with
  -- The token is not empty, so that some are allowed.
  | zero => simp at enough
  | succ fuel =>
    -- A token does not start with a space, so that none is passed over.
    have stays : (c :: text ++ rest).dropWhile isSpace = c :: text ++ rest := by
      refine List.dropWhile_cons_of_neg fun blank => ?_
      rw [List.cons_append, readToken_space blank] at read
      cases read
    have others := lexes fuel (by simp at enough; omega)
    unfold tokensWithin
    rw [stays, List.cons_append]
    rw [List.cons_append] at read
    simp only [read, others, Option.map_some]

/-- A mark in front is read first. -/
theorem mark {c : Char} (read : readToken (c :: rest) = some (token, rest))
    (lexes : Lexes rest tokens) : Lexes (c :: rest) (token :: tokens) :=
  append (List.cons_ne_nil c []) read lexes

/-- A new line is passed over. -/
theorem newLine (depth : Nat) (lexes : Lexes rest tokens) :
    Lexes (newLine depth ++ rest) tokens := by
  refine spaces ?_ lexes
  simp [Json.newLine, isSpace]

/-- The key of a member is read with its colon. -/
theorem key (key : String) (lexes : Lexes rest tokens) :
    Lexes (printText key ++ (": ".toList ++ rest)) (.scalar (.str key) :: .colon :: tokens) := by
  -- After the colon stands a space.
  have blank : [' '].all isSpace = true := by decide
  exact append (by simp [printText]) (readToken_printText key _) (mark rfl (spaces blank lexes))

end Lexes

mutual

/-- The tokens of data. -/
def tokensOf : Json → List Token
  -- An empty array has no room for a new line.
  | .arr [] => [.openArr, .closeArr]
  | .arr (first :: rest) => .openArr :: (tokensOf first ++ (tokensOfItems rest ++ [.closeArr]))
  | .obj [] => [.openObj, .closeObj]
  | .obj ((key, value) :: rest) =>
    .openObj :: .scalar (.str key) :: .colon ::
      (tokensOf value ++ (tokensOfMembers rest ++ [.closeObj]))
  | data => [.scalar data]

/-- The tokens of the items after the first one. -/
def tokensOfItems : List Json → List Token
  | [] => []
  | item :: rest => .comma :: (tokensOf item ++ tokensOfItems rest)

/-- The tokens of the members after the first one. -/
def tokensOfMembers : List (String × Json) → List Token
  | [] => []
  | (key, value) :: rest =>
    .comma :: .scalar (.str key) :: .colon :: (tokensOf value ++ tokensOfMembers rest)

end

/-- A new line ends a number. -/
theorem endsNumber_newLine (depth : Nat) (rest : List Char) : EndsNumber (newLine depth ++ rest) :=
  rfl

/-- Further items end a number, when what follows them does. -/
theorem endsNumber_printItems (depth : Nat) (items : List Json) {rest : List Char}
    (ends : EndsNumber rest) : EndsNumber (printItems depth items ++ rest) := by
  -- What follows is the end or a comma.
  cases items with
  | nil => exact ends
  | cons item others =>
    unfold printItems
    rfl

/-- Further members end a number, when what follows them does. -/
theorem endsNumber_printMembers (depth : Nat) (members : List (String × Json)) {rest : List Char}
    (ends : EndsNumber rest) : EndsNumber (printMembers depth members ++ rest) := by
  cases members with
  | nil => exact ends
  | cons member others =>
    obtain ⟨key, value⟩ := member
    unfold printMembers
    rfl

mutual

/-- Data that is written is cut into its tokens. -/
theorem lexes_print (data : Json) (depth : Nat) {rest : List Char} {tokens : List Token}
    (ends : EndsNumber rest) (lexes : Lexes rest tokens) :
    Lexes (data.print depth ++ rest) (data.tokensOf ++ tokens) := by
  match data with
  -- The words are tokens as they are, and numbers end where the text after them says so.
  | .null => exact lexes.append (by simp [print]) rfl
  | .bool b => cases b <;> exact lexes.append (by simp [print]) rfl
  | .int n => exact lexes.append (integerText_ne_nil n) (readToken_integer n ends)
  | .float x => exact lexes.append (printDouble_ne_nil x) (readToken_printDouble x ends)
  | .str s => exact lexes.append (by simp [print, printText]) (readToken_printText s rest)
  | .arr [] => exact (lexes.mark rfl).mark rfl
  | .arr (first :: others) =>
    -- What follows the items is read first, and each part is put before it.
    have closed : Lexes (newLine depth ++ (']' :: rest)) (.closeArr :: tokens) :=
      (lexes.mark rfl).newLine depth
    have ended := endsNumber_newLine depth (']' :: rest)
    have items := lexes_printItems others (depth + 1) ended closed
    have ended := endsNumber_printItems (depth + 1) others ended
    have whole := ((lexes_print first (depth + 1) ended items).newLine (depth + 1)).mark
      (c := '[') rfl
    simpa [print, tokensOf] using whole
  | .obj [] => exact (lexes.mark rfl).mark rfl
  | .obj ((key, value) :: others) =>
    -- The same from the end, with a key before each value.
    have closed : Lexes (newLine depth ++ ('}' :: rest)) (.closeObj :: tokens) :=
      (lexes.mark rfl).newLine depth
    have ended := endsNumber_newLine depth ('}' :: rest)
    have members := lexes_printMembers others (depth + 1) ended closed
    have ended := endsNumber_printMembers (depth + 1) others ended
    have whole := (((lexes_print value (depth + 1) ended members).key key).newLine (depth + 1)).mark
      -- A key is a text before a colon.
      (c := '{') rfl
    simpa [print, tokensOf] using whole

/-- Further items that are written are cut into their tokens. -/
theorem lexes_printItems (items : List Json) (depth : Nat) {rest : List Char} {tokens : List Token}
    (ends : EndsNumber rest) (lexes : Lexes rest tokens) :
    Lexes (printItems depth items ++ rest) (tokensOfItems items ++ tokens) := by
  match items with
  | [] => exact lexes
  | item :: others =>
    have later := lexes_printItems others depth ends lexes
    -- A number in the item is ended by what stands after it.
    have ended := endsNumber_printItems depth others ends
    have whole := ((lexes_print item depth ended later).newLine depth).mark (c := ',') rfl
    simpa [printItems, tokensOfItems] using whole

/-- Further members that are written are cut into their tokens. -/
theorem lexes_printMembers (members : List (String × Json)) (depth : Nat) {rest : List Char}
    {tokens : List Token} (ends : EndsNumber rest) (lexes : Lexes rest tokens) :
    Lexes (printMembers depth members ++ rest) (tokensOfMembers members ++ tokens) := by
  match members with
  | [] => exact lexes
  | (key, value) :: others =>
    have later := lexes_printMembers others depth ends lexes
    -- The value of the member is ended in the same way.
    have ended := endsNumber_printMembers depth others ends
    have whole := (((lexes_print value depth ended later).key key).newLine depth).mark
      (c := ',') rfl
    simpa [printMembers, tokensOfMembers] using whole

end

mutual

/-- No object in the data has a key twice. -/
@[simp] def Proper : Json → Prop
  | .arr items => properItems items
  | .obj members => (members.map Prod.fst).Nodup ∧ properMembers members
  | _ => True

/-- No object in any of the items has a key twice. -/
@[simp] def properItems : List Json → Prop
  -- The items are asked one by one.
  | [] => True
  | item :: rest => item.Proper ∧ properItems rest

/-- No object in any of the members has a key twice. -/
@[simp] def properMembers : List (String × Json) → Prop
  | [] => True
  | (_, value) :: rest => value.Proper ∧ properMembers rest

end

/-- A new key is put after all others. -/
theorem putMember_eq_append {key : String} {members : List (String × Json)}
    (fresh : key ∉ members.map Prod.fst) (data : Json) :
    putMember key data members = members ++ [(key, data)] := by
  induction members with
  | nil => rfl
  | cons member members ih =>
    obtain ⟨other, old⟩ := member
    simp only [List.map_cons, List.mem_cons, not_or] at fresh
    have different : (other == key) = false := by simpa using Ne.symm fresh.1
    -- The search for the key passes over every member.
    rw [putMember, different, ih fresh.2]
    rfl

/-- Members with different keys are kept as they are, in their order. -/
theorem ofMembers_eq {members : List (String × Json)} (distinct : (members.map Prod.fst).Nodup) :
    ofMembers members = .obj members := by
  -- Those that are there already and those that follow have different keys.
  have general : ∀ before : List (String × Json), ((before ++ members).map Prod.fst).Nodup →
      members.foldl (fun object member => putMember member.1 member.2 object) before =
        before ++ members := by
    induction members with
    | nil => simp
    | cons member members ih =>
      -- The member is put after those before it, since its key is new.
      intro before unique
      obtain ⟨key, data⟩ := member
      have fresh : key ∉ before.map Prod.fst := by
        rw [List.map_append, List.map_cons] at unique
        exact fun member => (List.nodup_append.mp unique).2.2 key member key List.mem_cons_self rfl
      have kept : ((before ++ [(key, data)] ++ members).map Prod.fst).Nodup := by
        simpa using unique
      rw [List.map_cons, List.nodup_cons] at distinct
      have next := ih distinct.2 _ kept
      simpa [putMember_eq_append fresh] using next
  exact congrArg Json.obj (general [] distinct)

/-- A token that can be read leads on. -/
theorem foldlM_cons {state next : State} {token : Token} (steps : state.step token = some next)
    (tokens : List Token) :
    (token :: tokens).foldlM State.step state = tokens.foldlM State.step next := by
  rw [List.foldlM_cons, steps]
  rfl

/-- Data may follow in a state, inside the given arrays and objects. -/
def State.Awaits (state : State) (frames : List Frame) : Prop :=
  -- Only the end of an array may come where no data does.
  ∀ token, token ≠ .closeArr → state.step token = State.begin frames token

/-- Data may follow wherever it must. -/
theorem awaits_expectData (frames : List Frame) : (State.expectData frames).Awaits frames :=
  fun _ _ => rfl

/-- Data may follow at the start of an array, unless the array ends at once. -/
theorem awaits_firstItem (frames : List Frame) :
    (State.firstItem frames).Awaits (.items [] :: frames) := by
  intro token other
  cases token with
  | closeArr => exact absurd rfl other
  | _ => rfl

mutual

/-- The tokens of data are read as the data. -/
theorem foldlM_tokensOf (data : Json) (proper : data.Proper) {state : State} {frames : List Frame}
    (awaits : state.Awaits frames) (tokens : List Token) :
    (data.tokensOf ++ tokens).foldlM State.step state =
      tokens.foldlM State.step (.done data frames) := by
  match data with
  -- A scalar is read where data may follow.
  | .null => exact foldlM_cons (awaits (.scalar .null) nofun) tokens
  | .bool b => exact foldlM_cons (awaits (.scalar (.bool b)) nofun) tokens
  | .int n => exact foldlM_cons (awaits (.scalar (.int n)) nofun) tokens
  | .float x => exact foldlM_cons (awaits (.scalar (.float x)) nofun) tokens
  | .str s => exact foldlM_cons (awaits (.scalar (.str s)) nofun) tokens
  | .arr [] => exact (foldlM_cons (awaits .openArr nofun) _).trans (foldlM_cons rfl tokens)
  | .arr (first :: others) =>
    -- The first item waits on the stack while the others are read.
    have items := foldlM_tokensOfItems others proper.2 first [] frames tokens
    simp only [tokensOf, List.cons_append, List.append_assoc, List.nil_append]
    rw [foldlM_cons (awaits .openArr nofun),
      foldlM_tokensOf first proper.1 (awaits_firstItem frames), items]
    rfl
  | .obj [] => exact (foldlM_cons (awaits .openObj nofun) _).trans (foldlM_cons rfl tokens)
  | .obj ((key, value) :: others) =>
    -- The first member waits on the stack with its key.
    have members := foldlM_tokensOfMembers others proper.2.2 key value [] frames tokens
    simp only [tokensOf, List.cons_append, List.append_assoc, List.nil_append]
    rw [foldlM_cons (awaits .openObj nofun), foldlM_cons rfl, foldlM_cons rfl,
      foldlM_tokensOf value proper.2.1 (awaits_expectData _), members]
    -- The members have different keys, so that none takes the place of another.
    rw [List.reverse_singleton, List.singleton_append, ofMembers_eq proper.1]

/-- The tokens of further items are read as the items, up to the end of the array. -/
theorem foldlM_tokensOfItems (items : List Json) (proper : properItems items) (first : Json)
    (before : List Json) (frames : List Frame) (tokens : List Token) :
    (tokensOfItems items ++ .closeArr :: tokens).foldlM State.step
        (.done first (.items before :: frames)) =
      tokens.foldlM State.step (.done (.arr ((first :: before).reverse ++ items)) frames) := by
  match items with
  | [] =>
    rw [List.append_nil]
    exact foldlM_cons rfl tokens
  | item :: others =>
    -- The item that was finished joins those before it.
    have later := foldlM_tokensOfItems others proper.2 item (first :: before) frames tokens
    simp only [tokensOfItems, List.cons_append, List.append_assoc]
    rw [foldlM_cons rfl, foldlM_tokensOf item proper.1 (awaits_expectData _), later]
    simp

/-- The tokens of further members are read as the members, up to the end of the object. -/
theorem foldlM_tokensOfMembers (members : List (String × Json)) (proper : properMembers members)
    (key : String) (value : Json) (before : List (String × Json)) (frames : List Frame)
    (tokens : List Token) :
    (tokensOfMembers members ++ .closeObj :: tokens).foldlM State.step
        (.done value (.members before key :: frames)) =
      tokens.foldlM State.step
        (.done (ofMembers (((key, value) :: before).reverse ++ members)) frames) := by
  match members with
  | [] =>
    rw [List.append_nil]
    exact foldlM_cons rfl tokens
  | (other, data) :: others =>
    -- The member that was finished joins those before it.
    have later :=
      foldlM_tokensOfMembers others proper.2 other data ((key, value) :: before) frames tokens
    simp only [tokensOfMembers, List.cons_append, List.append_assoc]
    rw [foldlM_cons rfl, foldlM_cons rfl, foldlM_cons rfl,
      foldlM_tokensOf data proper.1 (awaits_expectData _), later]
    simp

end

/-- Data that is written as text is read back, if no object in it has a key twice. -/
theorem read?_render (data : Json) (proper : data.Proper) : read? data.render = some data := by
  have lexes : Lexes (data.print 0 ++ []) (data.tokensOf ++ []) := lexes_print data 0 rfl .nil
  -- The text is cut into tokens, and these are read as the data.
  have tokens : tokens (data.print 0) = some data.tokensOf := by
    rw [List.append_nil, List.append_nil] at lexes
    exact lexes _ (Nat.le_refl _)
  have built := foldlM_tokensOf data proper (awaits_expectData []) []
  rw [List.append_nil] at built
  simp only [read?, render, String.toList_ofList, tokens, built]
  rfl

end Json

end Pseudocode
