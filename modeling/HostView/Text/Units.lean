/-!
# Code units of script text

Scripts hold text as a sequence of 16-bit code units, which need not be well formed: a surrogate
may stand outside a pair. Text that is well formed is kept as a `String`; the rest keeps its units
together with the place where reading it as text fails. `ScriptString.ofUnits` decides which of
the two a sequence is, so equal sequences are equal strings.
-/

namespace HostView

namespace Units

/-- The first half of a surrogate pair. -/
def isHigh (u : UInt16) : Bool :=
  0xD800 ≤ u.toNat && u.toNat < 0xDC00

/-- The second half of a surrogate pair. -/
def isLow (u : UInt16) : Bool :=
  0xDC00 ≤ u.toNat && u.toNat < 0xE000

/-- The units of one character: itself, or a surrogate pair above the basic plane. -/
def ofChar (c : Char) : List UInt16 :=
  let n := c.toNat
  if n < 0x10000 then [UInt16.ofNat n]
  else
    [UInt16.ofNat (0xD800 + (n - 0x10000) / 0x400),
      UInt16.ofNat (0xDC00 + (n - 0x10000) % 0x400)]

/-- The units of a text. -/
def ofString (s : String) : List UInt16 :=
  s.toList.flatMap ofChar

/-- The character of a surrogate pair. -/
def pair (high low : UInt16) : Char :=
  Char.ofNat (0x10000 + (high.toNat - 0xD800) * 0x400 + (low.toNat - 0xDC00))

/-- Reads units as characters, or reports the length in UTF-8 bytes of what stands before the
first surrogate outside a pair; `before` bytes have been read already. -/
def decodeFrom (before : Nat) : List UInt16 → Except Nat (List Char)
  | [] => .ok []
  | [u] =>
    if isHigh u || isLow u then .error before else .ok [Char.ofNat u.toNat]
  | u :: v :: rest =>
    if isHigh u then
      if isLow v then (decodeFrom (before + 4) rest).map (pair u v :: ·) else .error before
    else if isLow u then .error before
    else
      let c := Char.ofNat u.toNat
      (decodeFrom (before + c.utf8Size) (v :: rest)).map (c :: ·)

/-- Reads units as text. -/
def decode (units : List UInt16) : Except Nat String :=
  (decodeFrom 0 units).map String.ofList

/-- Where some units first stand in others. -/
def indexOf? (part : List UInt16) : List UInt16 → Option Nat
  | [] => if part.isEmpty then some 0 else none
  | u :: rest =>
    if part.isPrefixOf (u :: rest) then some 0 else (indexOf? part rest).map (· + 1)

/-- Where some units last stand in others. -/
def lastIndexOf? (part : List UInt16) : List UInt16 → Option Nat
  | [] => if part.isEmpty then some 0 else none
  | u :: rest =>
    match lastIndexOf? part rest with
    | some i => some (i + 1)
    | none => if part.isPrefixOf (u :: rest) then some 0 else none

/-- Divides units at each place where a separator stands; `skip` units of one are still to be left
out, and `before` holds the units since the last one, last first. -/
def splitFrom (separator : List UInt16) (skip : Nat) (before : List UInt16) :
    List UInt16 → List (List UInt16)
  | [] => [before.reverse]
  | u :: rest =>
    match skip with
    | k + 1 => splitFrom separator k before rest
    | 0 =>
      if separator.isPrefixOf (u :: rest) then
        before.reverse :: splitFrom separator (separator.length - 1) [] rest
      else splitFrom separator 0 (u :: before) rest

/-- The parts of units between separators. Without a separator each unit is a part. -/
def splitOn (separator units : List UInt16) : List (List UInt16) :=
  if separator.isEmpty then units.map fun u => [u] else splitFrom separator 0 [] units

/-- Units as text, each surrogate outside a pair being replaced by the mark for that. -/
def mended : List UInt16 → List UInt16
  | [] => []
  | [u] => [if isHigh u || isLow u then 0xFFFD else u]
  | u :: v :: rest =>
    if isHigh u && isLow v then u :: v :: mended rest
    else (if isHigh u || isLow u then 0xFFFD else u) :: mended (v :: rest)

/-- The number of the character of a surrogate pair. -/
def pairPoint (high low : UInt16) : Nat :=
  0x10000 + (high.toNat - 0xD800) * 0x400 + (low.toNat - 0xDC00)

/-- The numbers of the characters of units; a surrogate outside a pair counts as one. -/
def points : List UInt16 → List Nat
  | [] => []
  | [u] => [u.toNat]
  | u :: v :: rest =>
    if isHigh u && isLow v then pairPoint u v :: points rest else u.toNat :: points (v :: rest)

/-- The units of a character of the given number, which may be a surrogate. -/
def ofPoint (n : Nat) : List UInt16 :=
  if n < 0x10000 then [UInt16.ofNat n]
  else
    [UInt16.ofNat (0xD800 + (n - 0x10000) / 0x400),
      UInt16.ofNat (0xDC00 + (n - 0x10000) % 0x400)]

/-- The units of characters of the given numbers. -/
def ofPoints (ns : List Nat) : List UInt16 := ns.flatMap ofPoint

end Units

/-- Units that are no text, with the UTF-8 length of the part before the fault. -/
structure LoneSurrogate where
  units : List UInt16
  index : Nat
  lone : Units.decode units = .error index
  deriving DecidableEq

/-- A string as scripts hold it. -/
inductive ScriptString where
  | text (s : String)
  | illFormed (units : LoneSurrogate)
  deriving DecidableEq

namespace ScriptString

instance : Coe String ScriptString := ⟨.text⟩

/-- The string made of the given units. -/
def ofUnits (units : List UInt16) : ScriptString :=
  match h : Units.decode units with
  | .ok s => .text s
  | .error index => .illFormed ⟨units, index, h⟩

/-- The units of a string. -/
def units : ScriptString → List UInt16
  | .text s => Units.ofString s
  | .illFormed u => u.units

/-- Appends two strings; halves of a pair that meet become one character. -/
def append (a b : ScriptString) : ScriptString :=
  match a, b with
  | .text s, .text t => .text (s ++ t)
  | _, _ => ofUnits (a.units ++ b.units)

end ScriptString

end HostView
