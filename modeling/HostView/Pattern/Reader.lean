import HostView.Number.Power
import HostView.Pattern.Basic
import HostView.Text.Hexadecimal

/-!
# Reading patterns

A pattern is written as a text. Where characters count and not units, its grammar is strict; in the
other case an escape that means nothing stands for its character, and a bracket that opens nothing
for itself.
-/

namespace HostView.Pattern

/-- Why a text is no pattern. -/
inductive Fault where
  | expecting (c : Char)
  | nothingToRepeat
  | unexpectedEnd
  | trailingCharacters
  | badRange
  | badCount
  | badGroup
  | badName
  | duplicateName
  | unknownName
  | missingName
  | badEscape
  | unknownGroup
  | badDecimal
  | misplaced
  | tooManyGroups
  | unknownProperty
  | tooDeep
  deriving DecidableEq

/-- What is said of a text that is no pattern. -/
def Fault.message : Fault → String
  | .expecting c => "expecting '" ++ String.singleton c ++ "'"
  | .nothingToRepeat => "nothing to repeat"
  | .unexpectedEnd => "unexpected end"
  | .trailingCharacters => "extraneous characters at the end"
  | .badRange => "invalid class range"
  | .badCount => "invalid repetition count"
  | .badGroup => "invalid group"
  | .badName => "invalid group name"
  | .duplicateName => "duplicate group name"
  | .unknownName => "group name not defined"
  | .missingName => "expecting group name"
  | .badEscape => "invalid escape sequence in regular expression"
  | .unknownGroup => "back reference out of range in regular expression"
  | .badDecimal => "invalid decimal escape in regular expression"
  | .misplaced => "syntax error"
  | .tooManyGroups => "too many captures"
  | .unknownProperty => "unknown unicode property name"
  | .tooDeep => "stack overflow"

/-! ### Pieces of text -/

/-- The numbers of the characters of a text. -/
def numbers (s : String) : List Nat := s.toList.map Char.toNat

/-- What follows a text at the start of characters. -/
def after? (s : String) (cs : List Nat) : Option (List Nat) :=
  if (numbers s).isPrefixOf cs then some (cs.drop s.length) else none

/-- Characters begin with a text. -/
def begins (s : String) (cs : List Nat) : Bool := (after? s cs).isSome

/-- The value of a digit. -/
def digit? (base : Nat) (c : Nat) : Option Nat :=
  if c < 128 then (Hexadecimal.digit? (Char.ofNat c)).filter (· < base) else none

/-- The character is a decimal digit. -/
def isDigit (c : Nat) : Bool := (digit? 10 c).isSome

/-- The decimal number at the start of characters, and what follows it. -/
def decimal (cs : List Nat) : Nat × List Nat :=
  ((cs.takeWhile isDigit).foldl (fun n c => 10 * n + (c - 0x30)) 0, cs.dropWhile isDigit)

/-- The number that so many hexadecimal digits write. -/
def hexadecimal? (count : Nat) (cs : List Nat) : Option (Nat × List Nat) := do
  let digits ← (cs.take count).mapM (digit? 16)
  if digits.length = count then return (digits.foldl (fun n d => 16 * n + d) 0, cs.drop count)
  else none

/-- The number of a character inside braces. -/
def braced? (cs : List Nat) : Option (Nat × List Nat) := do
  let digits ← (cs.takeWhile (· ≠ '\x7d'.toNat)).mapM (digit? 16)
  let rest ← after? "\x7d" (cs.drop digits.length)
  let n := digits.foldl (fun n d => min (16 * n + d) 0x110000) 0
  if digits.isEmpty || 0x10FFFF < n then none else return (n, rest)

/-! ### Escapes -/

/-- What an escape means. -/
inductive Escape where
  | char (c : Nat) (rest : List Nat)
  /-- It begins like one that has a meaning. -/
  | malformed
  | unknown

/-- The second half of a surrogate pair, written as an escape. -/
def lowEscape? (cs : List Nat) : Option (Nat × List Nat) := do
  let (n, rest) ← hexadecimal? 4 (← after? "\\u" cs)
  if 0xDC00 ≤ n && n < 0xE000 then return (n, rest) else none

/-- What comes after `u` in an escape. -/
def ofPointEscape (strict : Bool) (cs : List Nat) : Escape :=
  match if strict then after? "\x7b" cs else none with
  | some rest =>
    match braced? rest with
    | some (n, rest) => .char n rest
    | none => .malformed
  | none =>
    match hexadecimal? 4 cs with
    | none => .malformed
    | some (n, rest) =>
      if strict && 0xD800 ≤ n && n < 0xDC00 then
        match lowEscape? rest with
        | some (low, rest) => .char (Units.pairPoint (.ofNat n) (.ofNat low)) rest
        | none => .char n rest
      else .char n rest

/-- An octal number of up to three digits, below 256. -/
def octal (first : Nat) (cs : List Nat) : Nat × List Nat :=
  match cs with
  | c :: rest =>
    match digit? 8 c with
    | none => (first, cs)
    | some d =>
      let n := 8 * first + d
      match rest with
      | e :: rest' =>
        match digit? 8 e with
        | some d => if n < 32 then (8 * n + d, rest') else (n, rest)
        | none => (n, rest)
      | [] => (n, rest)
  | [] => (first, cs)

/-- The escape that follows a backslash. -/
def escape (strict : Bool) (cs : List Nat) : Escape :=
  match cs with
  | [] => .unknown
  | c :: rest =>
    if c = 'b'.toNat then .char 0x8 rest
    else if c = 'f'.toNat then .char 0xC rest
    else if c = 'n'.toNat then .char 0xA rest
    else if c = 'r'.toNat then .char 0xD rest
    else if c = 't'.toNat then .char 0x9 rest
    else if c = 'v'.toNat then .char 0xB rest
    else if c = 'x'.toNat then
      match hexadecimal? 2 rest with
      | some (n, rest) => .char n rest
      | none => .malformed
    else if c = 'u'.toNat then ofPointEscape strict rest
    else
      match digit? 8 c with
      | none => .unknown
      | some d =>
        if strict then
          if d ≠ 0 || rest.head?.any isDigit then .malformed else .char 0 rest
        else
          let (n, rest) := octal d rest
          .char n rest

/-- The characters that a letter after a backslash names. -/
def namedSet? (c : Nat) : Option (List (Nat × Nat)) :=
  if c = 'd'.toNat then some digits
  else if c = 'D'.toNat then some (between 0 digits)
  else if c = 's'.toNat then some blanks
  else if c = 'S'.toNat then some (between 0 blanks)
  else if c = 'w'.toNat then some wordCharacters
  else if c = 'W'.toNat then some (between 0 wordCharacters)
  else none

/-! ### Names of groups -/

/-- The character may stand in a name; the first one may be no digit. -/
def isNameCharacter (first : Bool) (c : Nat) : Bool :=
  inRanges [(0x41, 0x5A), (0x61, 0x7A)] c || c = '$'.toNat || c = '_'.toNat ||
    (!first && isDigit c) ||
    (128 ≤ c && c < 0x110000 && !inRanges blanks c && !(0xD800 ≤ c && c < 0xE000) &&
      !inRanges [(0x80, 0xA9), (0xAB, 0xB4), (0xB6, 0xB9), (0xBB, 0xBF), (0xD7, 0xD7), (0xF7, 0xF7),
        (0x2010, 0x206F), (0x20A0, 0x20CF), (0x2190, 0x2BFF), (0x1F000, 0x1FAFF)] c)

/-- The next character of a name, and what follows it. -/
def nameCharacter? : List Nat → Option (Nat × List Nat)
  | [] => none
  | c :: rest =>
    if c = '\\'.toNat then do
      match ofPointEscape true (← after? "u" rest) with
      | .char n rest => return (n, rest)
      | _ => none
    else
      match rest with
      | d :: rest' =>
        if 0xD800 ≤ c && c < 0xDC00 && 0xDC00 ≤ d && d < 0xE000 then
          some (Units.pairPoint (.ofNat c) (.ofNat d), rest')
        else some (c, rest)
      | [] => some (c, rest)

/-- The rest of a name up to its bracket; `before` are the characters that were read, last first.
The bound is on its length. -/
def nameFrom? (before : List Nat) : Nat → List Nat → Option (List Nat × List Nat)
  | 0, _ => none
  | n + 1, cs =>
    match after? ">" cs with
    | some rest => if before.isEmpty then none else some (before.reverse, rest)
    | none => do
      let (c, rest) ← nameCharacter? cs
      if isNameCharacter before.isEmpty c then nameFrom? (c :: before) n rest else none

/-- The name of a group, and what follows its bracket. -/
def name? (cs : List Nat) : Option (List Nat × List Nat) := nameFrom? [] (cs.length + 1) cs

/-- Skips a set of characters in brackets. -/
def skipSet : List Nat → List Nat
  | [] => []
  | [_] => []
  | c :: d :: rest =>
    if c = ']'.toNat then d :: rest
    else if c = '\\'.toNat then skipSet rest
    else skipSet (d :: rest)

/-- The names of the groups that a pattern opens, in order; a group without a name, or with a wrong
one, has none. The bound is on the length of the pattern. -/
def groupNames : Nat → List Nat → List (Option (List Nat))
  | 0, _ => []
  | _, [] => []
  | n + 1, c :: rest =>
    if c = '('.toNat then
      match after? "?" rest with
      | none => none :: groupNames n rest
      | some inner =>
        match after? "<" inner with
        | none => groupNames n rest
        | some inner =>
          if begins "=" inner || begins "!" inner then groupNames n rest
          else
            match name? inner with
            | some (name, rest) => some name :: groupNames n rest
            | none => none :: groupNames n inner
    else if c = '\\'.toNat then groupNames n (rest.drop 1)
    else if c = '['.toNat then groupNames n (skipSet rest)
    else groupNames n rest

/-- A pattern opens a group that should have a name. -/
def opensNamed : Nat → List Nat → Bool
  | 0, _ => false
  | _, [] => false
  | n + 1, c :: rest =>
    if c = '('.toNat then
      (begins "?<" rest && !begins "?<=" rest && !begins "?<!" rest) || opensNamed n rest
    else if c = '\\'.toNat then opensNamed n (rest.drop 1)
    else if c = '['.toNat then opensNamed n (skipSet rest)
    else opensNamed n rest

/-! ### Reading -/

/-- What is known of the whole pattern. -/
structure Overview where
  /-- Characters count, not units. -/
  strict : Bool
  dotAll : Bool
  groups : List (Option (List Nat))
  /-- Groups have names. -/
  named : Bool

/-- How far a pattern is read. -/
structure Progress where
  rest : List Nat
  /-- How many groups were opened, with the whole pattern. -/
  groups : Nat
  names : List (Nat × List Nat)

/-- A step of reading. -/
abbrev Reading := StateT Progress (Except Fault)

/-- What is still to be read. -/
def remaining : Reading (List Nat) := return (← get).rest

/-- Goes on at another place. -/
def goOn (rest : List Nat) : Reading Unit := modify fun p => { p with rest }

/-- Goes past a text, if it comes next. -/
def accept (s : String) : Reading Bool := do
  match after? s (← remaining) with
  | some rest => do
    goOn rest
    return true
  | none => return false

/-- Goes past a character, which must come next. -/
def expect (c : Char) : Reading Unit := do
  if !(← accept (String.singleton c)) then throw (.expecting c)

/-- A character, or some of them. -/
inductive Item where
  | char (c : Nat)
  | set (ranges : List (Nat × Nat))

/-- The letter after a backslash makes it a control character. -/
def isControl (w : Overview) (inSet : Bool) (c : Nat) : Bool :=
  inRanges [(0x41, 0x5A), (0x61, 0x7A)] c ||
    (inSet && !w.strict && (isDigit c || c = '_'.toNat))

/-- Reads what follows a backslash where a character may stand. -/
def readEscape (w : Overview) (inSet : Bool) : Reading Item := do
  match ← remaining with
  | [] => throw .unexpectedEnd
  | c :: rest =>
    let literal : Reading Item := do
      goOn rest
      return .char c
    match namedSet? c with
    | some ranges => do
      goOn rest
      return .set ranges
    | none =>
      if c = 'c'.toNat then
        match rest with
        | d :: rest' =>
          if isControl w inSet d then
            goOn rest'
            return .char (d % 32)
          else if w.strict then throw .badEscape
          else return .char '\\'.toNat
        | [] => if w.strict then throw .badEscape else return .char '\\'.toNat
      else if w.strict && (c = 'p'.toNat || c = 'P'.toNat) then throw .unknownProperty
      else if c = '-'.toNat && w.strict && inSet then literal
      else
        match escape w.strict (c :: rest) with
        | .char n rest => do
          goOn rest
          return .char n
        | .malformed => if w.strict then throw .badEscape else literal
        | .unknown =>
          if w.strict && !(numbers "^$\\.*+?()[]\x7b\x7d|/").contains c then throw .badEscape
          else literal

/-- Reads a character, or an escape for some. -/
def readItem (w : Overview) (inSet : Bool) : Reading Item := do
  match ← remaining with
  | [] => throw .unexpectedEnd
  | c :: rest => do
    goOn rest
    if c = '\\'.toNat then readEscape w inSet else return .char c

/-- The ranges of an item. -/
def Item.ranges : Item → List (Nat × Nat)
  | .char c => [(c, c)]
  | .set ranges => ranges

/-- Reads an item of a set, or a range of characters. -/
def readRange (w : Overview) : Reading (List (Nat × Nat)) := do
  let first ← readItem w true
  let here ← get
  if begins "-" here.rest && !begins "-]" here.rest then
    match first with
    | .set ranges => if w.strict then throw .badRange else return ranges
    | .char a => do
      goOn (here.rest.drop 1)
      match ← readItem w true with
      | .char b => if b < a then throw .badRange else return [(a, b)]
      | .set _ =>
        if w.strict then throw .badRange
        else do
          set here
          return [(a, a)]
  else return first.ranges

/-- Reads the items of a set up to its bracket; the bound is on their number. -/
def readRanges (w : Overview) : Nat → Reading (List (Nat × Nat))
  | 0 => throw .tooDeep
  | n + 1 => do
    if ← accept "]" then return []
    else do
      let ranges ← readRange w
      return ranges ++ (← readRanges w n)

/-- Reads a set of characters after its opening bracket. -/
def readSet (w : Overview) : Reading CharSet := do
  let negated ← accept "^"
  return ⟨← readRanges w ((← remaining).length + 1), negated⟩

/-- Characters look like a count of repetitions. -/
def isCount (cs : List Nat) : Bool :=
  let inner := cs.drop 1
  let rest := inner.dropWhile isDigit
  let rest := match after? "," rest with
    | some rest => rest.dropWhile isDigit
    | none => rest
  inner.head?.any isDigit && begins "\x7d" rest

/-- No repetition is counted from here on. -/
def countLimit : Nat := 2 ^ 31 - 1

/-- Reads a count of repetitions after its opening brace, if it is one. -/
def readCount (w : Overview) : Reading (Option (Nat × Option Nat)) := do
  let cs ← remaining
  if !cs.head?.any isDigit then
    if w.strict then throw .badCount else return none
  else do
    let (least, rest) := decimal cs
    let least := min least countLimit
    let (most, rest) :=
      match after? "," rest with
      | none => (least, rest)
      | some rest =>
        if rest.head?.any isDigit then
          let (most, rest) := decimal rest
          (min most countLimit, rest)
        else (countLimit, rest)
    if most < least then throw .badCount
    if !w.strict && !begins "\x7d" rest then return none
    else do
      goOn rest
      expect '\x7d'
      return some (least, if most < countLimit then some most else none)

/-- Reads how often something may stand, if that is said. -/
def readRepetition (w : Overview) : Reading (Option (Nat × Option Nat)) := do
  if ← accept "*" then return some (0, none)
  else if ← accept "+" then return some (1, none)
  else if ← accept "?" then return some (0, some 1)
  else do
    let here ← get
    if ← accept "\x7b" then
      let count ← readCount w
      if count.isNone then set here
      return count
    else return none

/-- Something that was read, as often as is said after it; `first` is the next group that was to be
opened before it. -/
def readTimes (w : Overview) (first : Nat) (node : Node) : Reading Node := do
  match ← readRepetition w with
  | none => return node
  | some (least, most) => do
    let lazy ← accept "?"
    return .times least most (!lazy) first (← get).groups node

/-- Reads a place, if one is described. -/
def readPlace : Reading (Option Place) := do
  if ← accept "^" then return some .start
  else if ← accept "$" then return some .finish
  else if ← accept "\\b" then return some (.boundary false)
  else if ← accept "\\B" then return some (.boundary true)
  else return none

/-- Opens a group, with a name if it is to have one. -/
def openGroup (name : Option (List Nat)) : Reading Nat := do
  let p ← get
  if 255 ≤ p.groups then throw .tooManyGroups
  set { p with
    groups := p.groups + 1
    names := p.names ++ (name.map fun name => (p.groups, name)).toList }
  return p.groups

/-- Reads the name of a new group. -/
def readNewName : Reading (List Nat) := do
  let p ← get
  match name? p.rest with
  | none => throw .badName
  | some (name, rest) =>
    if p.names.any (·.2 = name) then throw .duplicateName
    else do
      goOn rest
      return name

/-- Reads a reference to a group by name, after its letter. If groups have no names the letter
stands for itself. -/
def readNamedReference (w : Overview) : Reading Node := do
  let isNeeded := w.strict || w.named
  let literal (fault : Fault) : Reading Node :=
    if isNeeded then throw fault else return .char 'k'.toNat
  match after? "<" (← remaining) with
  | none => literal .missingName
  | some rest =>
    match name? rest with
    | none => literal .badName
    | some (name, rest) =>
      match w.groups.findIdx? (· = some name) with
      | none => literal .unknownName
      | some index => do
        goOn rest
        return .reference (index + 1)

/-- Reads an escape with digits: a reference to a group by number, or else an octal number. -/
def readNumbered (w : Overview) : Reading Node := do
  let cs ← remaining
  let (n, rest) := decimal cs
  if n < countLimit && n ≤ max w.groups.length ((← get).groups - 1) then
    goOn rest
    return .reference n
  else if w.strict then throw .unknownGroup
  else
    match cs with
    | c :: rest =>
      match digit? 8 c with
      | none => do
        goOn rest
        return .char c
      | some d => do
        let (n, rest) := octal d rest
        goOn rest
        return .char n
    | [] => throw .unexpectedEnd

/-- Reads the null character, after its digit. -/
def readNull (w : Overview) : Reading Node := do
  let cs ← remaining
  if w.strict then if cs.head?.any isDigit then throw .badDecimal else return .char 0
  else do
    let (n, rest) :=
      match cs with
      | c :: rest =>
        match digit? 8 c with
        | none => (0, cs)
        | some d =>
          match rest with
          | e :: rest' => ((digit? 8 e).map fun e => (8 * d + e, rest')).getD (d, rest)
          | [] => (d, rest)
      | [] => (0, cs)
    goOn rest
    return .char n

/-- Reads what is no group and has no group in it. -/
def readSimple (w : Overview) : Reading Node := do
  let cs ← remaining
  if ← accept "." then return .set (if w.dotAll then ⟨[], true⟩ else ⟨lineEnds, true⟩)
  else if ← accept "[" then return .set (← readSet w)
  else if ← accept "\\k" then readNamedReference w
  else if ← accept "\\0" then readNull w
  else if begins "\\" cs && (cs.drop 1).head?.any isDigit then
    goOn (cs.drop 1)
    readNumbered w
  else if begins "*" cs || begins "+" cs || begins "?" cs then throw .nothingToRepeat
  else if begins "\x7b" cs && w.strict then throw .misplaced
  else if isCount cs && begins "\x7b" cs then throw .nothingToRepeat
  else if w.strict && (begins "]" cs || begins "\x7d" cs) then throw .misplaced
  else
    match ← readItem w false with
    | .char c => return .char c
    | .set ranges => return .set ⟨ranges, false⟩

mutual

/-- Reads alternatives. The bound is on how much follows or is inside. -/
def readAlternatives (w : Overview) : Nat → Reading Node
  | 0 => throw .tooDeep
  | n + 1 => do
    let first ← readSequence w n
    if ← accept "|" then return .either first (← readAlternatives w n) else return first

/-- Reads what comes one after the other. -/
def readSequence (w : Overview) : Nat → Reading Node
  | 0 => throw .tooDeep
  | n + 1 => do
    let cs ← remaining
    if cs.isEmpty || begins "|" cs || begins ")" cs then return .empty
    else do
      let first ← readTerm w n
      return .seq first (← readSequence w n)

/-- Reads one thing, as often as is said after it. -/
def readTerm (w : Overview) : Nat → Reading Node
  | 0 => throw .tooDeep
  | n + 1 => do
    let first := (← get).groups
    match ← readPlace with
    | some p => return .place p
    | none =>
      if ← accept "(?<=" then readLook w n true false
      else if ← accept "(?<!" then readLook w n true true
      else if begins "(?=" (← remaining) || begins "(?!" (← remaining) then do
        let negated := begins "(?!" (← remaining)
        goOn ((← remaining).drop 3)
        let node ← readLook w n false negated
        if w.strict then return node else readTimes w first node
      else if ← accept "(" then readTimes w first (← readGroup w n)
      else readTimes w first (← readSimple w)

/-- Reads what follows or goes before, up to its bracket. -/
def readLook (w : Overview) : Nat → Bool → Bool → Reading Node
  | 0, _, _ => throw .tooDeep
  | n + 1, behind, negated => do
    let node ← readAlternatives w n
    expect ')'
    return .look behind negated node

/-- Reads a group after its opening bracket. -/
def readGroup (w : Overview) : Nat → Reading Node
  | 0 => throw .tooDeep
  | n + 1 => do
    if ← accept "?:" then
      let node ← readAlternatives w n
      expect ')'
      return node
    else do
      let name ←
        if ← accept "?<" then some <$> readNewName
        else if ← accept "?" then throw .badGroup
        else pure none
      let index ← openGroup name
      let node ← readAlternatives w n
      expect ')'
      return .group index node

end

/-- Reads a whole pattern. -/
def read (w : Overview) (cs : List Nat) : Except Fault (Node × Progress) :=
  (do
    let node ← readAlternatives w (4 * cs.length + 8)
    if !(← remaining).isEmpty then throw .trailingCharacters
    return node : Reading Node).run ⟨cs, 1, []⟩

/-- The pattern that a text writes. -/
def ofText (source : ScriptString) (flags : Flags) : Except Fault Pattern := do
  let strict := flags.countsCharacters
  let units := source.units
  let cs := if strict then Units.points units else units.map UInt16.toNat
  let w : Overview :=
    { strict
      dotAll := flags.dotAll
      groups := groupNames (cs.length + 1) cs
      named := opensNamed (cs.length + 1) cs }
  let (body, p) ← read w cs
  return { source, flags, body, groups := p.groups,
           names := p.names.map fun (index, name) => (index, .ofUnits (Units.ofPoints name)) }

end HostView.Pattern
