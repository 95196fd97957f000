import HostView.Text.Decimal
import HostView.Text.Hexadecimal

/-!
# Internet addresses

Addresses of both families as bit vectors, with their text. Four octets are written in decimal
without leading zeros. Eight groups are written in lower-case hexadecimal without leading zeros;
the longest run of at least two zero groups, the first of several, is written as two colons; an
address that embeds one of the other family below `ffff` ends in its four octets. Reading is more
liberal about groups: case, leading zeros up to four digits, one run of colons anywhere, and four
octets at the end.
-/

namespace HostView

/-- An internet address of either family. -/
inductive Address where
  | v4 (bits : BitVec 32)
  | v6 (bits : BitVec 128)
  deriving DecidableEq

namespace Address

/-- The number of bits in an address of the same family. -/
def width : Address → Nat
  | .v4 _ => 32
  | .v6 _ => 128

/-- Both addresses belong to one family. -/
def sameFamily : Address → Address → Bool
  | .v4 _, .v4 _ => true
  | .v6 _, .v6 _ => true
  | _, _ => false

/-- Four-octet addresses come first; within a family the order is that of the bits. -/
def compare : Address → Address → Ordering
  | .v4 a, .v4 b => Ord.compare a.toNat b.toNat
  | .v6 a, .v6 b => Ord.compare a.toNat b.toNat
  | .v4 _, .v6 _ => .lt
  | .v6 _, .v4 _ => .gt

/-! ### Reading -/

/-- The longest run of digits at the head of the text: their number, the value they form in the
given radix, and what follows. -/
def run (digit? : Char → Option Nat) (radix : Nat) (count value : Nat) :
    List Char → Nat × Nat × List Char
  | [] => (count, value, [])
  | c :: rest =>
    match digit? c with
    | some d => run digit? radix (count + 1) (value * radix + d) rest
    | none => (count, value, c :: rest)

/-- An octet: up to three decimal digits, at most 255, without a leading zero. -/
def octet? (cs : List Char) : Option (Nat × List Char) :=
  let (count, value, rest) := run Decimal.digit? 10 0 0 cs
  if count = 0 ∨ 3 < count ∨ 255 < value ∨ (1 < count ∧ cs.head? = some '0') then none
  else some (value, rest)

/-- A group: up to four hexadecimal digits. -/
def group? (cs : List Char) : Option (Nat × List Char) :=
  let (count, value, rest) := run Hexadecimal.digit? 16 0 0 cs
  if count = 0 ∨ 4 < count then none else some (value, rest)

/-- The given character at the head of the text. -/
def mark? (mark : Char) : List Char → Option (List Char)
  | c :: rest => if c = mark then some rest else none
  | [] => none

/-- Four octets with points between them. -/
def octets? (cs : List Char) : Option (Nat × List Char) := do
  let (a, cs) ← octet? cs
  let (b, cs) ← octet? (← mark? '.' cs)
  let (c, cs) ← octet? (← mark? '.' cs)
  let (d, cs) ← octet? (← mark? '.' cs)
  some (((a * 256 + b) * 256 + c) * 256 + d, cs)

/-- A colon, unless the group is the first of its run. -/
def separator? (first : Bool) (cs : List Char) : Option (List Char) :=
  if first then some cs else mark? ':' cs

/-- As many groups as there are, `room` at most, and whether they end in four octets, which take
the place of two. -/
def groups (first : Bool) : Nat → List Char → List Nat × Bool × List Char
  | 0, cs => ([], false, cs)
  | room + 1, cs =>
    let embedded := if room = 0 then none else (separator? first cs).bind octets?
    match embedded with
    | some (n, rest) => ([n / 65536, n % 65536], true, rest)
    | none =>
      match (separator? first cs).bind group? with
      | none => ([], false, cs)
      | some (g, rest) =>
        let (gs, octets, rest) := groups false room rest
        (g :: gs, octets, rest)

/-- The number whose groups of sixteen bits are given, highest first. -/
def joinGroups (gs : List Nat) : Nat :=
  gs.foldl (fun n g => n * 65536 + g) 0

/-- Eight groups, or fewer around one pair of colons. -/
def longForm? (cs : List Char) : Option (Nat × List Char) :=
  let (head, octets, rest) := groups true 8 cs
  if head.length = 8 then some (joinGroups head, rest)
  else if octets then none
  else do
    let rest ← mark? ':' (← mark? ':' rest)
    let (tail, _, rest) := groups true (7 - head.length) rest
    some (joinGroups (head ++ List.replicate (8 - head.length - tail.length) 0 ++ tail), rest)

/-- The address that `s` writes. -/
def parse? (s : String) : Option Address :=
  let cs := s.toList
  match octets? cs with
  | some (n, rest) => if rest = [] then some (.v4 (.ofNat 32 n)) else none
  | none =>
    match longForm? cs with
    | some (n, []) => some (.v6 (.ofNat 128 n))
    | _ => none

/-! ### Writing -/

/-- Four octets in decimal. -/
def octetText (n : Nat) : List Char :=
  Decimal.digits (n / 2 ^ 24 % 256) ++ '.' :: Decimal.digits (n / 2 ^ 16 % 256) ++
    '.' :: Decimal.digits (n / 2 ^ 8 % 256) ++ '.' :: Decimal.digits (n % 256)

/-- Groups in hexadecimal with colons between them. -/
def groupText : List Nat → List Char
  | [] => []
  | [g] => Nat.toDigits 16 g
  | g :: rest => Nat.toDigits 16 g ++ ':' :: groupText rest

/-- The eight groups of an address, highest first. -/
def toGroups (n : Nat) : List Nat :=
  [n / 2 ^ 112 % 65536, n / 2 ^ 96 % 65536, n / 2 ^ 80 % 65536, n / 2 ^ 64 % 65536,
    n / 2 ^ 48 % 65536, n / 2 ^ 32 % 65536, n / 2 ^ 16 % 65536, n % 65536]

/-- The start and length of the longest run of zeros; the first of several. `start` and `length`
describe the run that ends here, `best` the longest so far. -/
def longestZeros (index start length : Nat) (best : Nat × Nat) : List Nat → Nat × Nat
  | [] => best
  | g :: rest =>
    if g = 0 then
      let start := if length = 0 then index else start
      let best := if best.2 < length + 1 then (start, length + 1) else best
      longestZeros (index + 1) start (length + 1) best rest
    else longestZeros (index + 1) 0 0 best rest

/-- Eight groups, the longest run of zeros left out. -/
def longText (n : Nat) : List Char :=
  if n / 2 ^ 32 = 0xFFFF then "::ffff:".toList ++ octetText (n % 2 ^ 32)
  else
    let gs := toGroups n
    let (start, length) := longestZeros 0 0 0 (0, 0) gs
    if 1 < length then
      groupText (gs.take start) ++ ':' :: ':' :: groupText (gs.drop (start + length))
    else groupText gs

/-- The text of an address. -/
def render : Address → String
  | .v4 bits => String.ofList (octetText bits.toNat)
  | .v6 bits => String.ofList (longText bits.toNat)

end Address

end HostView
