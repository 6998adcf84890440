import Pseudocode.Proofs.Source.CommentReading

/-! How tokens are written: each one has its characters, and it is read back from them wherever it
is expected and nothing that follows could belong to it. -/

namespace Pseudocode

open Lexer (isNameStart isNameChar)

/-- Whether a word is an identifier: it is made like a name, and it is no keyword. -/
structure IsIdentifier (word : List Char) : Prop where
  /-- It starts with a letter or an underscore. -/
  starts : word.head?.any isNameStart = true
  /-- It is made of name characters. -/
  plain : word.all isNameChar = true
  /-- It is no keyword. -/
  free : ∀ keyword : Keyword, keyword.spelling.toList ≠ word

/-- Whether some characters are the digits of a number. -/
structure IsNumeral (digits : List Char) : Prop where
  /-- There is at least one digit. -/
  nonempty : digits ≠ []
  /-- There are only digits. -/
  digits : digits.all Char.isDigit = true

/-- A digit is no sign, so that none is split off in front of a number. -/
theorem IsNumeral.splitSign_append {digits : List Char} (numeral : IsNumeral digits)
    (rest : List Char) : splitSign (digits ++ rest) = (false, digits ++ rest) := by
  -- The first character decides, and it is a digit.
  obtain ⟨c, others, starts⟩ := List.exists_cons_of_ne_nil numeral.nonempty
  have digit : c.isDigit = true :=
    List.all_eq_true.mp numeral.digits c (starts ▸ List.mem_cons_self)
  rw [starts, List.cons_append]
  -- The two signs are characters that are no digits.
  unfold splitSign
  split
  · rename_i minus
    obtain ⟨rfl, -⟩ := List.cons.inj minus
    cases digit
  · rename_i plus
    obtain ⟨rfl, -⟩ := List.cons.inj plus
    cases digit
  · rfl

/-- Whether a text holds neither the given character nor the end of a line. -/
def Unbroken (close : Char) (text : List Char) : Prop :=
  ∀ c ∈ text, c ≠ close ∧ isLineEnd c = false

/-- Only the characters of the text are looked at. -/
instance (close : Char) (text : List Char) : Decidable (Unbroken close text) :=
  decidable_of_iff (text.all (fun c => c != close && !isLineEnd c) = true) (by simp [Unbroken])

namespace Token

/-- The characters that a token is written with. -/
def chars : Token → List Char
  | .keyword word => word.spelling.toList
  | .name spelling => spelling
  | .integer digits | .decimal digits => digits
  | .character c => ['\'', c, '\'']
  | .quotation content => '"' :: (content ++ ['"'])
  | .bracketed content => '[' :: (content ++ [']'])
  | .compare op => op.symbol.toList
  | .scale op => op.symbol.toList
  | .plus => ['+']
  | .minus => ['-']
  | .ampersand => ['&']
  | .dollar => ['$']
  | .leftParen => ['(']
  | .rightParen => [')']
  | .leftBrace => ['{']
  | .rightBrace => ['}']
  -- A comparison and a scale operator have the characters of their symbols.
  | .colon => [':']
  | .comma => [',']
  | .equals => ['=']
  -- A separator is counted as a line end, which is one of its spellings.
  | .separator => ['\n']

/-- The tokens that can be written on a line. A separator is what ends one. -/
def Writable : Token → Prop
  | .name spelling => IsIdentifier spelling
  | .integer digits => IsNumeral digits
  | .decimal digits =>
    ∃ whole fraction, digits = whole ++ '.' :: fraction ∧ IsNumeral whole ∧ IsNumeral fraction
  | .character c => Unbroken '\'' [c]
  | .quotation content => Unbroken '"' content
  -- A closing bracket can stand in brackets, but only by itself.
  | .bracketed content => content = [']'] ∨ Unbroken ']' content
  | .scale op => op = .mul ∨ op = .div ∨ op = .rem
  | .separator => False
  | _ => True

/-- Whether a token is written as a word. -/
def isWord : Token → Bool
  | .keyword _ | .name _ => true
  | _ => false

/-- Whether a token ends before a character, so that the two may stand side by side. -/
def stops : Token → Char → Bool
  | .keyword _, c | .name _, c => !isWordChar c
  | .integer _, c => !c.isDigit && c != '.'
  | .decimal _, c => !c.isDigit
  | .bracketed [], c => c != ']'
  | .compare .lt, c => c != '>' && c != '='
  | .compare .gt, c | .equals, c => c != '='
  | _, _ => true

end Token

namespace Lexer

/-- The digits are those of ASCII. -/
theorem toNat_of_isDigit {c : Char} (digit : c.isDigit = true) :
    48 ≤ c.toNat ∧ c.toNat ≤ 57 := by
  -- The library compares the characters as numbers of 32 bits.
  simp only [Char.isDigit, Bool.and_eq_true, decide_eq_true_eq, UInt32.le_iff_toNat_le,
    ge_iff_le] at digit
  exact digit

/-- Names start with the ASCII letters and the underscore. -/
theorem toNat_of_isNameStart {c : Char} (starts : isNameStart c = true) :
    (65 ≤ c.toNat ∧ c.toNat ≤ 90) ∨ (97 ≤ c.toNat ∧ c.toNat ≤ 122) ∨ c.toNat = 95 := by
  -- The definition has a range for each case of letters, and the underscore apart.
  have letters : (decide (65 ≤ c.val ∧ c.val ≤ 90) ||
      (decide (97 ≤ c.val) && decide (c.val ≤ 122)) || c == '_') = true := starts
  simp only [Bool.or_eq_true, Bool.and_eq_true, decide_eq_true_eq, beq_iff_eq,
    UInt32.le_iff_toNat_le] at letters
  rcases letters with (upper | lower) | rfl
  · exact .inl upper
  · exact .inr (.inl lower)
  · exact .inr (.inr rfl)

/-- The characters of names are the ASCII digits and letters and the underscore. -/
theorem toNat_of_isNameChar {c : Char} (named : isNameChar c = true) :
    (48 ≤ c.toNat ∧ c.toNat ≤ 57) ∨ (65 ≤ c.toNat ∧ c.toNat ≤ 90) ∨
      (97 ≤ c.toNat ∧ c.toNat ≤ 122) ∨ c.toNat = 95 := by
  -- A character of a name is a digit or one that may start it.
  have either : c.isDigit = true ∨ isNameStart c = true := by
    simp only [isNameStart, isNameChar, Char.isAlphanum, Bool.or_eq_true] at named ⊢
    tauto
  rcases either with digit | starts
  · exact .inl (toNat_of_isDigit digit)
  · exact .inr (toNat_of_isNameStart starts)

/-- Every character of a name is one of a word. -/
theorem isWordChar_of_isNameChar {c : Char} (named : isNameChar c = true) :
    isWordChar c = true := by
  -- Names are made of ASCII characters, and there the two classes are one.
  have ascii : c.toNat < 128 := by
    have bounds := toNat_of_isNameChar named
    omega
  rw [isWordChar, if_pos ascii]
  exact named

/-- What ends a word ends a name. -/
theorem isNameChar_eq_false {c : Char} (ends : isWordChar c = false) : isNameChar c = false := by
  -- Otherwise it would be part of the word, too.
  rw [Bool.eq_false_iff] at ends ⊢
  exact mt isWordChar_of_isNameChar ends

section Span

variable {p : Char → Bool} {word rest : List Char}

/-- A run of characters is taken up to where it stops. -/
theorem takeWhile_append_rest (inside : word.all p = true)
    (stops : rest.head?.all (fun c => !p c) = true) : (word ++ rest).takeWhile p = word := by
  -- The run is taken whole, and then nothing more of what follows.
  rw [List.takeWhile_append_of_pos (List.all_eq_true.mp inside)]
  cases rest with
  | nil => simp
  | cons c rest =>
    have stop : p c = false := by simpa using stops
    rw [List.takeWhile_cons_of_neg (by simp [stop]), List.append_nil]

/-- A run of characters is dropped up to where it stops. -/
theorem dropWhile_append_rest (inside : word.all p = true)
    (stops : rest.head?.all (fun c => !p c) = true) : (word ++ rest).dropWhile p = rest := by
  -- The run is dropped whole, and then nothing of what follows.
  rw [List.dropWhile_append_of_pos (List.all_eq_true.mp inside)]
  cases rest with
  | nil => rfl
  | cons c rest =>
    have stop : p c = false := by simpa using stops
    exact List.dropWhile_cons_of_neg (by simp [stop])

end Span

/-- Whether a character may start a token that is written on a line. -/
def isVisible (c : Char) : Bool :=
  !isBlank c && c != ';' && c != '#'

/-- What may be part of a name may start a token. -/
theorem isVisible_of_isNameChar {c : Char} (named : isNameChar c = true) : isVisible c = true := by
  have bounds := toNat_of_isNameChar named
  -- The characters of names are far from these others.
  have other : ∀ d : Char, d.toNat < 48 ∨ d.toNat = 59 → c ≠ d := by
    rintro d away rfl
    omega
  have seen : isBlank c = false := by
    simp only [isBlank, Bool.or_eq_false_iff, Bool.and_eq_false_iff, decide_eq_false_iff_not,
      beq_eq_false_iff_ne]
    omega
  simp [isVisible, seen, other ';' (by decide), other '#' (by decide)]

/-- A name starts with one of its characters. -/
theorem isNameChar_of_isNameStart {c : Char} (starts : isNameStart c = true) :
    isNameChar c = true := by
  -- A letter or an underscore is among the characters of names.
  simp only [isNameStart, isNameChar, Char.isAlphanum, Bool.or_eq_true] at starts ⊢
  tauto

/-- A digit may be part of a name. -/
theorem isNameChar_of_isDigit {c : Char} (digit : c.isDigit = true) : isNameChar c = true := by
  simp [isNameChar, Char.isAlphanum, digit]

/-- No name starts with a digit. -/
theorem isNameStart_of_isDigit {c : Char} (digit : c.isDigit = true) : isNameStart c = false := by
  rw [Bool.eq_false_iff]
  intro starts
  -- The codes of the digits lie apart from those of the letters and the underscore.
  have digits := toNat_of_isDigit digit
  have letters := toNat_of_isNameStart starts
  omega

/-- A keyword starts like a name. -/
theorem keyword_spelling_starts (keyword : Keyword) :
    keyword.spelling.toList.head?.any isNameStart = true := by
  -- There are finitely many keywords, and each starts with a letter.
  cases keyword with
  | logic op => cases op <;> decide
  | type varType => cases varType <;> decide
  | _ => decide

end Lexer

open Lexer

/-- Every keyword is in the list of them. -/
theorem Keyword.mem_all (keyword : Keyword) : keyword ∈ Keyword.all := by
  -- The list is searched for each of them.
  cases keyword with
  | logic op => cases op <;> decide
  | type varType => cases varType <;> decide
  | _ => decide

/-- No keyword is the beginning of another. -/
theorem Keyword.eq_of_prefix {first second : Keyword}
    (begins : first.spelling.toList <+: second.spelling.toList) : first = second := by
  -- Every pair of keywords is compared.
  have apart : ∀ first ∈ Keyword.all, ∀ second ∈ Keyword.all,
      first.spelling.toList.isPrefixOf second.spelling.toList = true → first = second := by
    decide +kernel
  exact apart first first.mem_all second second.mem_all (List.isPrefixOf_iff_prefix.mpr begins)

/-- The keyword that is looked for is found when no other will do. -/
theorem Keyword.find?_all {keyword : Keyword} {wanted : Keyword → Bool}
    (fits : wanted keyword = true) (only : ∀ other, wanted other = true → other = keyword) :
    Keyword.all.find? wanted = some keyword := by
  -- Something is found, since the keyword itself is wanted.
  cases found : Keyword.all.find? wanted with
  | none => exact absurd fits (List.find?_eq_none.mp found keyword keyword.mem_all)
  | some other => rw [only other (List.find?_some found)]

/-- A token starts with a visible character, and a letter there tells words from all others. -/
theorem Token.chars_starts {token : Token} (writable : token.Writable) :
    ∃ c rest, token.chars = c :: rest ∧ isVisible c = true ∧ isNameStart c = token.isWord := by
  -- The first character of a word is a letter or an underscore.
  have word : ∀ {word : List Char}, word.head?.any isNameStart = true →
      ∃ c rest, word = c :: rest ∧ isVisible c = true ∧ isNameStart c = true := by
    intro word starts
    cases word with
    | nil => cases starts
    | cons c rest =>
      have start : isNameStart c = true := starts
      exact ⟨c, rest, rfl, isVisible_of_isNameChar (isNameChar_of_isNameStart start), start⟩
  -- The first character of a number is a digit.
  have number : ∀ {digits : List Char} (rest : List Char), IsNumeral digits →
      ∃ c tail, digits ++ rest = c :: tail ∧ isVisible c = true ∧ isNameStart c = false := by
    rintro (_ | ⟨c, digits⟩) rest numeral
    · exact absurd rfl numeral.nonempty
    · have digit : c.isDigit = true := List.all_eq_true.mp numeral.digits c List.mem_cons_self
      exact ⟨c, digits ++ rest, rfl, isVisible_of_isNameChar (isNameChar_of_isDigit digit),
        isNameStart_of_isDigit digit⟩
  cases token with
  | keyword keyword => exact word (keyword_spelling_starts keyword)
  | name spelling => exact word writable.starts
  | integer digits =>
    have found := number [] writable
    rwa [List.append_nil] at found
  | decimal digits =>
    obtain ⟨whole, fraction, rfl, numeral, -⟩ := writable
    exact number _ numeral
  | compare op => cases op <;> exact ⟨_, _, rfl, by decide, rfl⟩
  | scale op => rcases writable with rfl | rfl | rfl <;> exact ⟨_, _, rfl, by decide, rfl⟩
  | separator => exact absurd writable not_false
  | _ => exact ⟨_, _, rfl, by decide, rfl⟩

/-- A word is made of name characters. -/
theorem Token.chars_plain {token : Token} (writable : token.Writable) (word : token.isWord = true) :
    token.chars.all isNameChar = true := by
  -- Only keywords and names are words.
  cases token with
  | keyword keyword => exact keyword_spelling_plain keyword
  | name spelling => exact writable.plain
  | _ => cases word

namespace Lexer

/-- An enclosed text is read up to what closes it. -/
theorem enclosedAt_unbroken {close : Char} {content : List Char} (unbroken : Unbroken close content)
    (make : List Char → Token) (rest : List Char) :
    enclosedAt close make (content ++ close :: rest) = [(make content, rest)] := by
  -- No character inside closes the text, nor does it end the line.
  have inside : content.all (staysOpen close) = true := by
    rw [List.all_eq_true]
    intro c member
    obtain ⟨other, line⟩ := unbroken c member
    have feed : c ≠ '\n' := by
      rintro rfl
      exact absurd line (by decide)
    simp [staysOpen, other, feed]
  -- The closing character is where it stops.
  have closes : (close :: rest).head?.all (fun c => !staysOpen close c) = true := by
    simp [staysOpen]
  simp [enclosedAt, takeWhile_append_rest inside closes, dropWhile_append_rest inside closes]

/-- A text in brackets is read up to the closing one. -/
theorem bracketedAt_content {content rest : List Char}
    (writable : (Token.bracketed content).Writable)
    (stops : rest.head?.all (Token.bracketed content).stops = true) :
    bracketedAt (content ++ ']' :: rest) = [(.bracketed content, rest)] := by
  -- A closing bracket by itself is read before anything else.
  rcases writable with rfl | unbroken
  · rfl
  · -- Two closing brackets in a row would be the bracket by itself.
    rw [bracketedAt_eq, enclosedAt_unbroken unbroken]
    intro tail same
    cases content with
    | nil =>
      obtain ⟨-, rfl⟩ := List.cons.inj same
      cases stops
    | cons c content => exact (unbroken c List.mem_cons_self).1 (List.cons.inj same).1

/-- A number without a fraction is all that a text starts with when no point follows it. -/
theorem numbersAt_integer {digits rest : List Char} (numeral : IsNumeral digits)
    (stops : rest.head?.all (Token.integer digits).stops = true) :
    numbersAt (digits ++ rest) = [(.integer digits, rest)] := by
  -- The number is read as far as its digits go.
  have digitless : rest.head?.all (fun c => !c.isDigit) = true := by
    cases rest with
    | nil => rfl
    | cons c rest => exact (Bool.and_eq_true_iff.mp stops).1
  -- No point follows, which would make a fraction.
  have pointless : (rest.head? == some '.') = false := by
    cases rest with
    | nil => rfl
    | cons c rest => simpa using (Bool.and_eq_true_iff.mp stops).2
  simp [numbersAt, List.span_eq_takeWhile_dropWhile, takeWhile_append_rest numeral.digits digitless,
    dropWhile_append_rest numeral.digits digitless, pointless]

/-- A number with a fraction is the first that a text starts with. -/
theorem numbersAt_decimal {whole fraction rest : List Char} (first : IsNumeral whole)
    (second : IsNumeral fraction) (stops : rest.head?.all (fun c => !c.isDigit) = true) :
    numbersAt (whole ++ '.' :: fraction ++ rest) =
      [(.decimal (whole ++ '.' :: fraction), rest),
        (.integer whole, '.' :: (fraction ++ rest))] := by
  -- The point ends the digits before it, and what follows ends those after it.
  have point : ('.' :: (fraction ++ rest)).head?.all (fun c => !c.isDigit) = true := rfl
  have some : fraction.isEmpty = false := by simpa using second.nonempty
  simp [numbersAt, List.span_eq_takeWhile_dropWhile, takeWhile_append_rest first.digits point,
    dropWhile_append_rest first.digits point, takeWhile_append_rest second.digits stops,
    dropWhile_append_rest second.digits stops, some]

/-- A token other than a word is the first that is tried where it is written. -/
theorem tokensAt_chars {token : Token} {rest : List Char} (writable : token.Writable)
    (other : token.isWord = false) (stops : rest.head?.all token.stops = true) :
    ∃ more, tokensAt (token.chars ++ rest) = (token, rest) :: more := by
  -- Numbers are looked for where a digit starts the text.
  have number : ∀ {digits : List Char} (tail : List Char), IsNumeral digits →
      tokensAt (digits ++ tail) = numbersAt (digits ++ tail) := by
    rintro (_ | ⟨c, digits⟩) tail numeral
    · exact absurd rfl numeral.nonempty
    · exact tokensAt_digit (List.all_eq_true.mp numeral.digits c List.mem_cons_self) _
  -- What a text goes on with cannot turn a symbol into a longer one.
  have apart : ∀ {c : Char} {tail : List Char}, token.stops c = false → rest ≠ c :: tail := by
    rintro c tail runs rfl
    simp [runs] at stops
  cases token with
  | keyword | name => cases other
  | integer digits =>
    -- There is one way to read such a number.
    exact ⟨[], by rw [Token.chars, number _ writable, numbersAt_integer writable stops]⟩
  | decimal digits =>
    obtain ⟨whole, fraction, rfl, first, second⟩ := writable
    refine ⟨[(.integer whole, '.' :: (fraction ++ rest))], ?_⟩
    rw [Token.chars, List.append_assoc, number _ first, ← List.append_assoc]
    exact numbersAt_decimal first second stops
  -- A quoted character is what stands between the quotes.
  | character c =>
    obtain ⟨other, line⟩ := writable c List.mem_cons_self
    have feed : c ≠ '\n' := by
      rintro rfl
      exact absurd line (by decide)
    exact ⟨[], by simp [Token.chars, tokensAt, other, feed]⟩
  | quotation content =>
    refine ⟨[], ?_⟩
    change quotationAt (content ++ ['"'] ++ rest) = _
    rw [List.append_assoc, quotationAt_eq]
    exact enclosedAt_unbroken writable .quotation rest
  | bracketed content =>
    refine ⟨[], ?_⟩
    change bracketedAt (content ++ [']'] ++ rest) = _
    rw [List.append_assoc]
    exact bracketedAt_content writable stops
  -- Only the signs for less and greater could go on with a character after them.
  | compare op =>
    cases op with
    | lt =>
      refine ⟨[], ?_⟩
      change tokensAt ('<' :: rest) = _
      rw [tokensAt]
      · exact fun _ => apart rfl
      · exact fun _ => apart rfl
    | gt =>
      refine ⟨[], ?_⟩
      change tokensAt ('>' :: rest) = _
      rw [tokensAt]
      exact fun _ => apart rfl
    | _ => exact ⟨_, rfl⟩
  | scale op => rcases writable with rfl | rfl | rfl <;> exact ⟨_, rfl⟩
  | equals =>
    refine ⟨[], ?_⟩
    change tokensAt ('=' :: rest) = _
    rw [tokensAt]
    exact fun _ => apart rfl
  | separator => exact absurd writable not_false
  -- Every other token has characters of its own.
  | _ => exact ⟨_, rfl⟩

section Word

variable {token : Token} {rest : List Char}

/-- What a word stops at is no character of a name. -/
theorem head?_all_not_isNameChar (word : token.isWord = true)
    (stops : rest.head?.all token.stops = true) :
    rest.head?.all (fun c => !isNameChar c) = true := by
  -- At the end of the text there is nothing that could belong to the word.
  cases rest with
  | nil => rfl
  | cons c rest =>
    have ends : isWordChar c = false := by
      cases token with
      | keyword | name => simpa [Token.stops] using stops
      | _ => cases word
    simpa using isNameChar_eq_false ends

/-- The word that a text starts with is a keyword when its first token is. -/
theorem takeWhile_isNameChar_chars (writable : token.Writable)
    (stops : rest.head?.all token.stops = true) (keyword : Keyword) :
    (token.chars ++ rest).takeWhile isNameChar = keyword.spelling.toList ↔
      token = .keyword keyword := by
  cases word : token.isWord with
  | true =>
    -- The word is taken whole.
    rw [takeWhile_append_rest (token.chars_plain writable word)
      (head?_all_not_isNameChar word stops)]
    cases token with
    | keyword other =>
      refine ⟨fun same => ?_, fun same => ?_⟩
      · rw [Keyword.eq_of_prefix ⟨[], (List.append_nil _).trans same⟩]
      · rw [Token.keyword.inj same]
        rfl
    -- A name is no keyword, whose spelling is its own.
    | name spelling =>
      refine ⟨fun same => absurd same.symm (writable.free keyword), fun same => ?_⟩
      cases same
    | _ => cases word
  | false =>
    -- Any other token starts with what is no letter.
    refine ⟨fun same => ?_, fun same => ?_⟩
    · obtain ⟨c, tail, written, -, start⟩ := token.chars_starts writable
      have letter := keyword_spelling_starts keyword
      rw [← same, written, List.cons_append, List.takeWhile_cons] at letter
      split at letter
      · simp [start, word] at letter
      · cases letter
    · subst same
      cases word

/-- A word is read back where it is expected. -/
theorem readWord?_chars {admits : TokenClass → Bool} (writable : token.Writable)
    (word : token.isWord = true) (admitted : admits token.tokenClass = true)
    (stops : rest.head?.all token.stops = true) :
    readWord? admits (token.chars ++ rest) = some (token, rest) := by
  -- The word is taken up to where it stops, and looked up as a whole.
  have plain := token.chars_plain writable word
  have ends := head?_all_not_isNameChar word stops
  unfold readWord?
  simp only [List.span_eq_takeWhile_dropWhile, takeWhile_append_rest plain ends,
    dropWhile_append_rest plain ends]
  cases token with
  | keyword keyword =>
    have expected : admits (.keyword keyword) = true := admitted
    -- The spelling is that of one keyword only, and no other one begins like it.
    split
    · rw [@Keyword.find?_all keyword]
      -- The keyword that is expected is the one with this spelling.
      · simp [Token.chars, expected]
      · intro other chosen
        obtain ⟨same, -⟩ := Bool.and_eq_true_iff.mp chosen
        exact Keyword.eq_of_prefix (eq_of_beq same ▸ List.prefix_rfl)
    · rw [@Keyword.find?_all keyword]
      · simp [Token.chars, ← String.length_toList]
      · simp [Token.chars, expected]
      · intro other chosen
        obtain ⟨begins, -⟩ := Bool.and_eq_true_iff.mp chosen
        rcases List.prefix_or_prefix_of_prefix (List.isPrefixOf_iff_prefix.mp begins)
          (List.prefix_append keyword.spelling.toList rest) with shorter | longer
        · exact Keyword.eq_of_prefix shorter
        · exact (Keyword.eq_of_prefix longer).symm
  | name spelling =>
    -- Where a name is expected, a word that is no keyword is one.
    have expected : admits .name = true := admitted
    rw [if_pos expected, List.find?_eq_none.mpr]
    · rfl
    · intro keyword _ chosen
      obtain ⟨same, -⟩ := Bool.and_eq_true_iff.mp chosen
      exact writable.free keyword (eq_of_beq same)
  -- Other tokens are no words.
  | _ => cases word

/-- A token is read back where it is expected. -/
theorem readToken?_chars {admits : TokenClass → Bool} (writable : token.Writable)
    (admitted : admits token.tokenClass = true) (stops : rest.head?.all token.stops = true) :
    readToken? admits (token.chars ++ rest) = some (token, rest) := by
  obtain ⟨c, tail, written, -, start⟩ := token.chars_starts writable
  -- The first character tells words from everything else.
  have first : ((token.chars ++ rest).head?.map isNameStart).getD false = token.isWord := by
    rw [written, ← start]
    rfl
  rw [readToken?, first]
  cases word : token.isWord with
  | true => exact readWord?_chars writable word admitted stops
  | false =>
    -- The token is the first one that is tried, and it is expected.
    obtain ⟨more, found⟩ := tokensAt_chars writable word stops
    rw [if_neg Bool.false_ne_true, found]
    exact List.find?_cons_of_pos admitted

end Word

end Lexer

end Pseudocode
