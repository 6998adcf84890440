import Pseudocode.Json.Basic

/-! Reading JSON: the text is cut into tokens, and the tokens drive a machine with a stack. -/

namespace Pseudocode

namespace Json

/-- The tokens of JSON. A scalar is data without parts. -/
inductive Token where
  | openArr
  | closeArr
  | openObj
  | closeObj
  | comma
  | colon
  | scalar (data : Json)

/-- Where the reading of a text stands. -/
inductive TextState where
  /-- Between characters. -/
  | plain
  /-- After a backslash. -/
  | escape
  /-- Inside a numbered character: the digits still to come, and the number so far. -/
  | hex (left : Nat) (code : Nat)

/-- The character that a letter after a backslash stands for. -/
def shortEscape? : Char → Option Char
  | '"' => some '"'
  | '\\' => some '\\'
  | '/' => some '/'
  -- The letters for backspace and form feed.
  | 'b' => some (Char.ofNat 8)
  | 'f' => some (Char.ofNat 12)
  | 'n' => some '\n'
  | 'r' => some '\r'
  | 't' => some '\t'
  | _ => none

/-- The number that a hexadecimal digit stands for. -/
def hexValue? (c : Char) : Option Nat :=
  if c.isDigit then some (c.toNat - '0'.toNat)
  else if 'a' ≤ c && c ≤ 'f' then some (c.toNat - 'a'.toNat + 10)
  else if 'A' ≤ c && c ≤ 'F' then some (c.toNat - 'A'.toNat + 10)
  else none

/-- Join the halves of characters beyond the basic plane: a numbered high half followed by a
numbered low half is one character. -/
def joinHalves : List Nat → List Char
  | high :: low :: rest =>
    -- A half without its counterpart is left alone, and `Char.ofNat` makes a null of it.
    if 0xD800 ≤ high && high < 0xDC00 && 0xDC00 ≤ low && low < 0xE000 then
      Char.ofNat (0x10000 + (high - 0xD800) * 0x400 + (low - 0xDC00)) :: joinHalves rest
    else Char.ofNat high :: joinHalves (low :: rest)
  | [code] => [Char.ofNat code]
  | [] => []

/-- Read a text up to its closing quote. The codes read so far stand with the latest first. -/
def readText (codes : List Nat) : TextState → List Char → Option (String × List Char)
  | _, [] => none
  | .plain, c :: rest =>
    if c == '"' then some (String.ofList (joinHalves codes.reverse), rest)
    else if c == '\\' then readText codes .escape rest
    -- A control stands in no text as it is.
    else if c.toNat < 32 then none
    else readText (c.toNat :: codes) .plain rest
  | .escape, c :: rest =>
    if c == 'u' then readText codes (.hex 4 0) rest
    else
      match shortEscape? c with
      | some d => readText (d.toNat :: codes) .plain rest
      | none => none
  | .hex left code, c :: rest =>
    match hexValue? c with
    | none => none
    | some digit =>
      -- The digits come with the highest first.
      let code := 16 * code + digit
      if left ≤ 1 then readText (code :: codes) .plain rest
      else readText codes (.hex (left - 1) code) rest

/-- Split off the whole part of a number: a zero alone, or digits that start with another one. -/
def splitWhole : List Char → List Char × List Char
  -- Digits after a leading zero are left over, and no token starts with them there.
  | '0' :: rest => (['0'], rest)
  | rest => rest.span Char.isDigit

/-- Split off the point and digits of a fraction, if they are there. -/
def splitPoint : List Char → List Char × List Char
  | '.' :: rest =>
    let (digits, after) := rest.span Char.isDigit
    -- A point without digits after it does not belong to the number.
    if digits.isEmpty then ([], '.' :: rest) else ('.' :: digits, after)
  | rest => ([], rest)

/-- Split off the letter, sign and digits of an exponent, if they are there. -/
def splitExponent : List Char → List Char × List Char
  | [] => ([], [])
  | e :: rest =>
    let (sign, unsigned) :=
      match rest with
      | '-' :: more => (['-'], more)
      | '+' :: more => (['+'], more)
      | more => ([], more)
    let (digits, after) := unsigned.span Char.isDigit
    -- Without digits, the letter is not part of the number either.
    if (e == 'e' || e == 'E') && !digits.isEmpty then (e :: sign ++ digits, after)
    else ([], e :: rest)

/-- Read a number after its sign. It is whole unless it has a fraction or an exponent. -/
def readNumber (negative : Bool) (text : List Char) : Option (Json × List Char) :=
  let (whole, afterWhole) := splitWhole text
  let (point, afterPoint) := splitPoint afterWhole
  let (exponent, rest) := splitExponent afterPoint
  if whole.isEmpty then none
  else if point.isEmpty && exponent.isEmpty then
    -- A whole number is read exactly, however long it is.
    let size : Int := Nat.ofDigitChars 10 whole 0
    some (.int (if negative then -size else size), rest)
  else
    -- Anything else is read as a decimal and rounded to the nearest double.
    let sign := if negative then ['-'] else []
    (Decimal.read? (sign ++ whole ++ point ++ exponent)).map fun d => (.float d.toDouble, rest)

/-- The words of JSON, with what they stand for. -/
def words : List (List Char × Json) :=
  [("null".toList, .null), ("true".toList, .bool true), ("false".toList, .bool false),
    ("NaN".toList, .float .nan), ("Infinity".toList, .float (.infinite false)),
    ("-Infinity".toList, .float (.infinite true))]

/-- Whether a character may stand between tokens. -/
def isSpace (c : Char) : Bool :=
  c == ' ' || c == '\t' || c == '\n' || c == '\r'

/-- Read one token from a text that starts with no space. -/
def readToken (text : List Char) : Option (Token × List Char) :=
  match text with
  | [] => none
  | c :: rest =>
    match c with
    | '[' => some (.openArr, rest)
    | ']' => some (.closeArr, rest)
    | '{' => some (.openObj, rest)
    | '}' => some (.closeObj, rest)
    | ',' => some (.comma, rest)
    | ':' => some (.colon, rest)
    | '"' => (readText [] .plain rest).map fun (s, after) => (.scalar (.str s), after)
    | _ =>
      -- The words come first, since one of them starts with a minus sign.
      match words.find? (·.1.isPrefixOf text) with
      | some (word, data) => some (.scalar data, text.drop word.length)
      | none =>
        (if c == '-' then readNumber true rest else readNumber false text).map
          fun (data, after) => (.scalar data, after)

/-- The tokens of a text, of which there are at most `fuel`. -/
def tokensWithin : Nat → List Char → Option (List Token)
  | fuel, text =>
    -- Spaces before a token are passed over, and so are those at the end.
    match fuel, text.dropWhile isSpace with
    | _, [] => some []
    | 0, _ => none
    | fuel + 1, c :: rest =>
      match readToken (c :: rest) with
      -- No token can be read here, so the text as a whole is refused.
      | none => none
      | some (token, after) => (tokensWithin fuel after).map (token :: ·)

/-- The tokens of a text. Each takes at least one character. -/
def tokens (text : List Char) : Option (List Token) :=
  tokensWithin text.length text

/-- An array or an object whose end has not been read, with its parts so far, the latest first. -/
inductive Frame where
  | items (before : List Json)
  | members (before : List (String × Json)) (key : String)

/-- Where the reading of data stands, with the open arrays and objects around it. -/
inductive State where
  /-- Data must follow. -/
  | expectData (frames : List Frame)
  /-- An array has just been opened. -/
  | firstItem (frames : List Frame)
  /-- An object has just been opened. -/
  | firstKey (frames : List Frame)
  /-- The key of a further member must follow. -/
  | expectKey (before : List (String × Json)) (frames : List Frame)
  /-- The colon after a key must follow. -/
  | expectColon (before : List (String × Json)) (key : String) (frames : List Frame)
  /-- Data has been read. -/
  | done (data : Json) (frames : List Frame)

/-- Put a member among others: a key that is there already takes the new data at its old place. -/
def putMember (key : String) (data : Json) : List (String × Json) → List (String × Json)
  | [] => [(key, data)]
  | (other, old) :: rest =>
    -- The place of a key is that of its first occurrence, its data that of the last.
    if other == key then (key, data) :: rest else (other, old) :: putMember key data rest

/-- The object that has the given members, read in the given order. -/
def ofMembers (members : List (String × Json)) : Json :=
  .obj (members.foldl (fun object (key, data) => putMember key data object) [])

/-- Read a token where data must follow. -/
def State.begin (frames : List Frame) : Token → Option State
  | .scalar data => some (.done data frames)
  | .openArr => some (.firstItem frames)
  | .openObj => some (.firstKey frames)
  | _ => none

/-- Read one token. -/
def State.step : State → Token → Option State
  | .expectData frames, token => State.begin frames token
  -- Only a bracket just opened may close at once: after a comma, an item must follow.
  | .firstItem frames, .closeArr => some (.done (.arr []) frames)
  -- An item is begun with the array around it that it will be put into.
  | .firstItem frames, token => State.begin (.items [] :: frames) token
  | .firstKey frames, .closeObj => some (.done (.obj []) frames)
  | .firstKey frames, .scalar (.str key) => some (.expectColon [] key frames)
  | .expectKey before frames, .scalar (.str key) => some (.expectColon before key frames)
  -- The key is kept with the open object until its data has been read.
  | .expectColon before key frames, .colon => some (.expectData (.members before key :: frames))
  | .done data (.items before :: frames), .comma =>
    some (.expectData (.items (data :: before) :: frames))
  | .done data (.items before :: frames), .closeArr =>
    some (.done (.arr (data :: before).reverse) frames)
  | .done data (.members before key :: frames), .comma =>
    some (.expectKey ((key, data) :: before) frames)
  -- Members are reversed before they are put together, so that later ones win.
  | .done data (.members before key :: frames), .closeObj =>
    some (.done (ofMembers ((key, data) :: before).reverse) frames)
  -- Every other token is out of place.
  | _, _ => none

/-- Read JSON data from a text that holds nothing else. -/
def read? (text : String) : Option Json :=
  match tokens text.toList with
  | none => none
  | some tokens =>
    match tokens.foldlM State.step (.expectData []) with
    -- Nothing may be left open at the end.
    | some (.done data []) => some data
    | _ => none

end Json

end Pseudocode
