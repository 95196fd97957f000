import HostView.Number.Numeral
import HostView.Script.Content

/-!
# Reading contents

How scripts read a document. What is said of a text that is none names the place where reading
stopped, in bytes and by line and column.
-/

namespace HostView.Script

namespace Content

/-- Why a text is no document. -/
inductive Fault where
  | unexpectedEnd
  | unexpectedCharacter
  | unexpectedToken (text : List Nat)
  | trailing
  /-- Something else, at the place before what is left of the text. -/
  | at (cause : String) (rest : List Nat)

/-! ### Places -/

/-- How many bytes a character takes. -/
def byteSize (c : Nat) : Nat :=
  if c < 0x80 then 1 else if c < 0x800 then 2 else if c < 0x10000 then 3 else 4

/-- How many bytes characters take. -/
def bytes (cs : List Nat) : Nat := cs.foldl (· + byteSize ·) 0

/-- The line and column that the end of a text has, given those of its start; `first` tells that a
line begins, whose first character counts as the second of it and ends no line. -/
def placeAfter (line column : Nat) (first : Bool) : List Nat → Nat × Nat
  | [] => (line, if first then column + 1 else column)
  | [c] =>
    if !first && (c = 0xA || c = 0xD) then (line + 1, 2) else (line, column + byteSize c)
  | c :: d :: rest =>
    if first then placeAfter line (column + byteSize c) false (d :: rest)
    else if c = 0xD && d = 0xA then placeAfter (line + 1) 1 true rest
    else if c = 0xA || c = 0xD then placeAfter (line + 1) 1 true (d :: rest)
    else placeAfter line (column + byteSize c) false (d :: rest)

/-- What is said of a text that is no document. -/
def Fault.message (text : List Nat) : Fault → String
  | .unexpectedEnd => "Unexpected end of JSON input"
  | .unexpectedCharacter => "unexpected character"
  | .unexpectedToken token =>
    "unexpected token: '" ++ String.ofList ((token.takeWhile (· ≠ 0)).map Char.ofNat) ++ "'"
  | .trailing => "unexpected data at the end"
  | .at cause rest =>
    let passed := text.take (text.length - rest.length)
    let (line, column) := placeAfter 1 1 false passed
    cause ++ " in JSON at position " ++ Decimal.ofNat (bytes passed) ++ " (line " ++
      Decimal.ofNat line ++ " column " ++ Decimal.ofNat column ++ ")"

/-! ### Tokens -/

/-- A token. -/
inductive Token where
  | finish
  | string (s : ScriptString)
  | number (x : Binary64)
  | word (text : List Nat)
  | mark (c : Nat)

/-- A token with what is left of the text where it begins, and after it. -/
structure Lexeme where
  token : Token
  start : List Nat
  rest : List Nat

/-- The character is a decimal digit. -/
def isDigit (c : Nat) : Bool := 0x30 ≤ c && c ≤ 0x39

/-- The character may begin a word. -/
def isLetter (c : Nat) : Bool :=
  (0x41 ≤ c && c ≤ 0x5A) || (0x61 ≤ c && c ≤ 0x7A) || c = 0x5F || c = 0x24

/-- The value of a hexadecimal digit. -/
def hexDigit? (c : Nat) : Option Nat :=
  if c < 0x80 then Hexadecimal.digit? (Char.ofNat c) else none

/-- The unit that so many hexadecimal digits more write. -/
def readUnit (unit : Nat) : Nat → List Nat → Except Fault (Nat × List Nat)
  | 0, rest => .ok (unit, rest)
  | _ + 1, [] => .error (.at "Bad Unicode escape" [])
  | n + 1, c :: rest =>
    match hexDigit? c with
    | some d => readUnit (16 * unit + d) n rest
    | none => .error (.at "Bad Unicode escape" (c :: rest))

/-- The rest of a string after its opening quote; `units` are those read so far, last first. The
bound is on its length. -/
def readString (units : List UInt16) : Nat → List Nat → Except Fault (ScriptString × List Nat)
  | 0, _ | _, [] => .error .unexpectedEnd
  | n + 1, c :: rest =>
    if c = 0x22 then .ok (.ofUnits units.reverse, rest)
    else if c < 0x20 then .error (.at "Bad control character in string literal" (c :: rest))
    else if c = 0x5C then
      match rest with
      | [] => .error .unexpectedEnd
      | d :: rest =>
        if d = 0x75 then
          match readUnit 0 4 rest with
          | .ok (unit, rest) => readString (.ofNat unit :: units) n rest
          | .error fault => .error fault
        else
          match if d < 0x80 then Json.escape? (Char.ofNat d) else none with
          | some e => readString (.ofNat e.toNat :: units) n rest
          | none => .error (.at "Bad escaped character" (d :: rest))
    else readString ((Units.ofPoint c).reverse ++ units) n rest

/-- A run of digits that is not empty, and what follows it. -/
def readDigits (fault : String) (cs : List Nat) : Except Fault (List Nat × List Nat) :=
  if cs.head?.any isDigit then .ok (cs.takeWhile isDigit, cs.dropWhile isDigit)
  else .error (.at fault cs)

/-- The fraction of a number, with its point. -/
def readFraction (cs : List Nat) : Except Fault (List Nat × List Nat) :=
  match cs with
  | 0x2E :: rest =>
    (readDigits "Unterminated fractional number" rest).map fun (ds, rest) => (0x2E :: ds, rest)
  | _ => .ok ([], cs)

/-- The exponent of a number, with its mark. -/
def readExponent (cs : List Nat) : Except Fault (List Nat × List Nat) :=
  match cs with
  | c :: rest =>
    if c = 0x65 || c = 0x45 then
      let (sign, rest) :=
        match rest with
        | 0x2B :: rest => ([], rest)
        | 0x2D :: rest => ([0x2D], rest)
        | rest => ([], rest)
      (readDigits "Exponent part is missing a number" rest).map fun (ds, rest) =>
        (0x65 :: sign ++ ds, rest)
    else .ok ([], cs)
  | [] => .ok ([], cs)

/-- A number without its sign. -/
def readNumber (negative : Bool) (cs : List Nat) : Except Fault (Binary64 × List Nat) := do
  match cs with
  | 0x30 :: c :: _ => if isDigit c then throw (.at "Unexpected number" cs)
  | _ => pure ()
  let (whole, rest) ← readDigits "No number after minus sign" cs
  let (fraction, rest) ← readFraction rest
  let (exponent, rest) ← readExponent rest
  let x := (Numeral.magnitude? ((whole ++ fraction ++ exponent).map Char.ofNat)).getD .zero
  return (if negative then x.neg else x, rest)

/-- The next token; `cs` is what is left of the text. -/
def readToken (cs : List Nat) : Except Fault Lexeme :=
  let cs := cs.dropWhile fun c => c = 0x20 || c = 0x9 || c = 0xA || c = 0xD
  match cs with
  | [] => .ok ⟨.finish, cs, []⟩
  | c :: rest =>
    if c = 0x22 then
      (readString [] (rest.length + 1) rest).map fun (s, rest) => ⟨.string s, cs, rest⟩
    else if isLetter c then
      let isRest (c : Nat) : Bool := isLetter c || isDigit c
      .ok ⟨.word (cs.takeWhile isRest), cs, cs.dropWhile isRest⟩
    else if c = 0x2D then
      if rest.head?.any isDigit then
        (readNumber true rest).map fun (x, rest) => ⟨.number x, cs, rest⟩
      else .error (.at "No number after minus sign" cs)
    else if isDigit c then (readNumber false cs).map fun (x, rest) => ⟨.number x, cs, rest⟩
    else if 0x80 ≤ c then .error .unexpectedCharacter
    else .ok ⟨.mark c, cs, rest⟩

/-! ### Values -/

/-- The word that characters are. -/
def isWord (word : String) (text : List Nat) : Bool := text = word.toList.map Char.toNat

mutual

/-- The value that begins with a token, and the token after it. The bound is on the length of the
text. -/
def readValue : Nat → Lexeme → Except Fault (Content × Lexeme)
  | 0, _ => .error .unexpectedEnd
  | n + 1, l => do
    let unexpected : Except Fault (Content × Lexeme) :=
      .error (.unexpectedToken (l.start.take (l.start.length - l.rest.length)))
    let leaf (c : Content) : Except Fault (Content × Lexeme) := do
      return (c, ← readToken l.rest)
    match l.token with
    | .finish => .error .unexpectedEnd
    | .string s => leaf (.string s)
    | .number x => leaf (.number x)
    | .word text =>
      if isWord "null" text then leaf .null
      else if isWord "true" text then leaf (.bool true)
      else if isWord "false" text then leaf (.bool false)
      else unexpected
    | .mark c =>
      if c = 0x5B then
        let first ← readToken l.rest
        match first.token with
        | .mark 0x5D => return (.array [], ← readToken first.rest)
        | _ => do
          let (items, after) ← readItems n first
          return (.array items, after)
      else if c = 0x7B then
        let first ← readToken l.rest
        match first.token with
        | .mark 0x7D => return (.object [], ← readToken first.rest)
        | .string _ => do
          let (members, after) ← readMembers n first
          return (.object members, after)
        | _ => .error (.at "Expected property name or '\x7d'" first.start)
      else unexpected

/-- The items of an array from one on, and the token after its bracket. -/
def readItems : Nat → Lexeme → Except Fault (List Content × Lexeme)
  | 0, _ => .error .unexpectedEnd
  | n + 1, l => do
    let (item, after) ← readValue n l
    match after.token with
    | .mark 0x5D => return ([item], ← readToken after.rest)
    | .mark 0x2C => do
      let (items, last) ← readItems n (← readToken after.rest)
      return (item :: items, last)
    | _ => .error (.at "Expected ',' or ']' after array element" after.start)

/-- The members of an object from one on, and the token after its brace. -/
def readMembers : Nat → Lexeme → Except Fault (List (ScriptString × Content) × Lexeme)
  | 0, _ => .error .unexpectedEnd
  | n + 1, l => do
    match l.token with
    | .string name => do
      let colon ← readToken l.rest
      match colon.token with
      | .mark 0x3A => do
        let (value, after) ← readValue n (← readToken colon.rest)
        match after.token with
        | .mark 0x7D => return ([(name, value)], ← readToken after.rest)
        | .mark 0x2C => do
          let (members, last) ← readMembers n (← readToken after.rest)
          return ((name, value) :: members, last)
        | _ => .error (.at "Expected ',' or '\x7d' after property value" after.start)
      | _ => .error (.at "Expected ':' after property name" colon.start)
    | _ => .error (.at "Expected double-quoted property name" l.start)

end

/-- The content that a text writes. -/
def read (cs : List Nat) : Except Fault Content := do
  let (c, after) ← readValue (2 * cs.length + 2) (← readToken cs)
  match after.token with
  | .finish => return c
  | _ => .error .trailing

/-- The content that a text writes, or what is said of a text that is no document. -/
def ofText (s : ScriptString) : Except String Content :=
  let cs := Units.points s.units
  (read cs).mapError (Fault.message cs)

end Content

end HostView.Script
