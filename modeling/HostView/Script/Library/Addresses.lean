import HostView.Script.Coercion

/-!
# Text that fits into an address

In an address only some characters stand for themselves. The others are written as the bytes of
their encoding, each by a percent sign and two hexadecimal digits; an older form writes units
instead, with four digits where two are not enough.
-/

namespace HostView.Script

namespace Address

/-! ### Units -/

/-- The unit is a letter or a digit. -/
def isPlain (u : UInt16) : Bool :=
  (0x30 ≤ u && u ≤ 0x39) || (0x41 ≤ u && u ≤ 0x5A) || (0x61 ≤ u && u ≤ 0x7A)

/-- The unit structures an address. -/
def isStructure (u : UInt16) : Bool := (Units.ofString ";/?:@&=+$,#").contains u

/-- The unit stands for itself in an address, or in a component of one. -/
def isFree (component : Bool) (u : UInt16) : Bool :=
  isPlain u || (Units.ofString "-_.!~*'()").contains u || (!component && isStructure u)

/-- The unit stands for itself in the older form. -/
def isOldFree (u : UInt16) : Bool := isPlain u || (Units.ofString "@*_+-./").contains u

/-- The last digits of a number in base 16, in capitals. -/
def hexadecimal (count n : Nat) : List UInt16 :=
  (List.range count).reverse.map fun i =>
    let d := n / 16 ^ i % 16
    UInt16.ofNat (if d < 10 then 0x30 + d else 0x41 + d - 10)

/-- A byte with its mark. -/
def marked (byte : Nat) : List UInt16 := 0x25 :: hexadecimal 2 byte

/-- The bytes of a character. -/
def bytesOf (n : Nat) : List Nat :=
  if n < 0x80 then [n]
  else if n < 0x800 then [0xC0 + n / 0x40, 0x80 + n % 0x40]
  else if n < 0x10000 then [0xE0 + n / 0x1000, 0x80 + n / 0x40 % 0x40, 0x80 + n % 0x40]
  else
    [0xF0 + n / 0x40000, 0x80 + n / 0x1000 % 0x40, 0x80 + n / 0x40 % 0x40, 0x80 + n % 0x40]

/-! ### Writing -/

/-- A text as it is written in an address. -/
def encode (component : Bool) : List UInt16 → Except String (List UInt16)
  | [] => .ok []
  | [u] =>
    if isFree component u then .ok [u]
    else if Units.isLow u then .error "invalid character"
    else if Units.isHigh u then .error "expecting surrogate pair"
    else .ok ((bytesOf u.toNat).flatMap marked)
  | u :: v :: rest =>
    if isFree component u then (encode component (v :: rest)).map (u :: ·)
    else if Units.isLow u then .error "invalid character"
    else if Units.isHigh u then
      if Units.isLow v then
        (encode component rest).map ((bytesOf (Units.pairPoint u v)).flatMap marked ++ ·)
      else .error "expecting surrogate pair"
    else (encode component (v :: rest)).map ((bytesOf u.toNat).flatMap marked ++ ·)

/-- A text in the older form. -/
def escape (units : List UInt16) : List UInt16 :=
  units.flatMap fun u =>
    if isOldFree u then [u]
    else if u < 256 then marked u.toNat
    else 0x25 :: 0x75 :: hexadecimal 4 u.toNat

/-! ### Reading -/

/-- The number that so many hexadecimal digits write, and what follows them. -/
def number? (count : Nat) (units : List UInt16) : Option (Nat × List UInt16) := do
  let digits ← (units.take count).mapM fun u =>
    if u < 128 then Hexadecimal.digit? (Char.ofNat u.toNat) else none
  if digits.length = count then
    return (digits.foldl (fun n d => 16 * n + d) 0, units.drop count)
  else none

/-- The byte that comes next, and what follows it. -/
def nextByte : List UInt16 → Except String (Nat × List UInt16)
  | 0x25 :: rest =>
    match number? 2 rest with
    | some found => .ok found
    | none => .error "expecting hex digit"
  | _ => .error "expecting %"

/-- The bytes that follow the first of a character, `n` being what was read of it. A byte that
follows none makes it no character. -/
def followers (n : Nat) : Nat → List UInt16 → Except String (Nat × List UInt16)
  | 0, rest => .ok (n, rest)
  | count + 1, rest => do
    let (byte, rest) ← nextByte rest
    if byte / 0x40 = 2 then followers (n * 0x40 + byte % 0x40) count rest else return (0, rest)

/-- A character of several bytes, of which the first was read. -/
def character (first : Nat) (rest : List UInt16) : Except String (Nat × List UInt16) := do
  let (count, start, least) :=
    if 0xC0 ≤ first && first < 0xE0 then (1, first % 0x20, 0x80)
    else if 0xE0 ≤ first && first < 0xF0 then (2, first % 0x10, 0x800)
    else if 0xF0 ≤ first && first < 0xF8 then (3, first % 8, 0x10000)
    else (0, 0, 1)
  let (n, rest) ← followers start count rest
  if n < least || 0x10FFFF < n || (0xD800 ≤ n && n < 0xE000) then throw "malformed UTF-8"
  else return (n, rest)

/-- The text that an address writes. In a whole address the marks that structure it stay written
as they are. The bound is on the length. -/
def decode (component : Bool) : Nat → List UInt16 → Except String (List UInt16)
  | 0, _ | _, [] => .ok []
  | n + 1, 0x25 :: rest => do
    let (byte, after) ← nextByte (0x25 :: rest)
    if byte < 0x80 then
      if !component && isStructure (.ofNat byte) then
        return 0x25 :: (← decode component n rest)
      else return .ofNat byte :: (← decode component n after)
    else do
      let (c, after) ← character byte after
      return Units.ofPoint c ++ (← decode component n after)
  | n + 1, u :: rest => do return u :: (← decode component n rest)

/-- The text that the older form writes; a mark that is followed by no digits stands for itself.
The bound is on the length. -/
def unescape : Nat → List UInt16 → List UInt16
  | 0, _ | _, [] => []
  | n + 1, u :: rest =>
    if u = 0x25 then
      let long : Option (Nat × List UInt16) :=
        match rest with
        | 0x75 :: digits => number? 4 digits
        | _ => none
      match long.or (number? 2 rest) with
      | some (unit, after) => .ofNat unit :: unescape n after
      | none => u :: unescape n rest
    else u :: unescape n rest

end Address

/-- Calls a function about addresses. -/
def AddressFunction.perform (f : AddressFunction) (arguments : List Value) : Routine Value := do
  let units := (← textFor (argument arguments 0)).units
  let result :=
    match f with
    | .encode component => Address.encode component units
    | .decode component => Address.decode component (units.length + 1) units
    | .escape => .ok (Address.escape units)
    | .unescape => .ok (Address.unescape (units.length + 1) units)
  match result with
  | .ok units => return .string (.ofUnits units)
  | .error message => throw (.badAddress message)

end HostView.Script
