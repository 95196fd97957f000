import HostView.Number.Power

/-!
# Double-precision numbers, exactly

A double is its 64-bit word. A finite one is the number `± significand * 2 ^ scale`, and
everything here is computed from those integers: which doubles are whole numbers, which double is
nearest to a fraction, and when two doubles are equal as numbers.
-/

namespace HostView

/-- A double-precision number, given by its word. -/
structure Binary64 where
  bits : UInt64
  deriving DecidableEq

namespace Binary64

/-- The word of the one NaN that is written out. -/
def nan : Binary64 := ⟨0x7FF8000000000000⟩

/-- Positive zero. -/
def zero : Binary64 := ⟨0⟩

/-- Whether the sign bit is set. -/
def negative (x : Binary64) : Bool :=
  2 ^ 63 ≤ x.bits.toNat

/-- The stored exponent, between 0 and 2047. -/
def exponentField (x : Binary64) : Nat :=
  x.bits.toNat / 2 ^ 52 % 2 ^ 11

/-- The stored fraction, below 2 ^ 52. -/
def fraction (x : Binary64) : Nat :=
  x.bits.toNat % 2 ^ 52

/-- Neither an infinity nor a NaN. -/
def isFinite (x : Binary64) : Bool :=
  x.exponentField != 2047

/-- Not a number. -/
def isNaN (x : Binary64) : Bool :=
  x.exponentField == 2047 && x.fraction != 0

/-- One of the two zeros. -/
def isZero (x : Binary64) : Bool :=
  x.bits.toNat % 2 ^ 63 == 0

/-- The whole number whose multiple by `2 ^ scale` is the magnitude of a finite double. -/
def significand (x : Binary64) : Nat :=
  if x.exponentField = 0 then x.fraction else 2 ^ 52 + x.fraction

/-- The power of two that belongs to `significand`. -/
def scale (x : Binary64) : Int :=
  (max x.exponentField 1 : Nat) - 1075

/-- The magnitude of a finite double without its fraction. -/
def wholePart (x : Binary64) : Nat :=
  match x.scale with
  | .ofNat k => x.significand * 2 ^ k
  | .negSucc k => x.significand / 2 ^ (k + 1)

/-- The magnitude of a double that is a whole number. -/
def magnitude? (x : Binary64) : Option Nat :=
  if x.isFinite then
    match x.scale with
    | .ofNat k => some (x.significand * 2 ^ k)
    | .negSucc k =>
      if x.significand % 2 ^ (k + 1) = 0 then some (x.significand / 2 ^ (k + 1)) else none
  else none

/-- The integer that a double is, if it is one. Both zeros are the integer 0. -/
def toInt? (x : Binary64) : Option Int :=
  x.magnitude?.map fun n => if x.negative then -(n : Int) else n

/-- Equality of numbers: a NaN equals nothing and the zeros are equal. -/
def eq (x y : Binary64) : Bool :=
  !x.isNaN && !y.isNaN && (x.bits == y.bits || x.isZero && y.isZero)

/-- The number with the opposite sign. -/
def neg (x : Binary64) : Binary64 :=
  ⟨if x.negative then x.bits - 0x8000000000000000 else x.bits + 0x8000000000000000⟩

/-- The word of the magnitude `m * 2 ^ q`, where `m` is below `2 ^ 53`, and at least `2 ^ 52`
unless `q` is the least scale. Scales that are too large give the infinity. -/
def wordOf (m : Nat) (q : Int) : Nat :=
  if m < 2 ^ 52 then m
  else if 971 < q then 2047 * 2 ^ 52
  else (q + 1075).toNat * 2 ^ 52 + (m - 2 ^ 52)

/-- The quotient `num / den`, scaled by `2 ^ (-q)`, and the rest, as a fraction of `den`. -/
def scaled (num den : Nat) (q : Int) : Nat × Nat × Nat :=
  let n := num * 2 ^ (-q).toNat
  let d := den * 2 ^ q.toNat
  (n / d, n % d, d)

/-- The nonnegative double nearest to `num / den`, a tie going to the even significand. -/
def nearest (num den : Nat) : Binary64 :=
  if num = 0 then zero
  else
    let guess : Int := max (-1074) ((num.log2 : Int) - den.log2 - 52)
    let q := if (scaled num den guess).1 < 2 ^ 52 then max (-1074) (guess - 1) else guess
    let (m, rest, d) := scaled num den q
    let rounded := if d < 2 * rest ∨ (d = 2 * rest ∧ m % 2 = 1) then m + 1 else m
    if rounded = 2 ^ 53 then ⟨UInt64.ofNat (wordOf (2 ^ 52) (q + 1))⟩
    else ⟨UInt64.ofNat (wordOf rounded q)⟩

/-- The double nearest to a natural number; below `2 ^ 53` it is that number. -/
def ofNat (n : Nat) : Binary64 :=
  if n = 0 then zero
  else if n < 2 ^ 53 then
    let k := n.log2
    ⟨UInt64.ofNat (wordOf (n * 2 ^ (52 - k)) ((k : Int) - 52))⟩
  else nearest n 1

/-- The double nearest to an integer. -/
def ofInt : Int → Binary64
  | .ofNat n => ofNat n
  | .negSucc n => (ofNat (n + 1)).neg

/-- The product of two nonnegative finite doubles, rounded once. -/
def mulMagnitude (x y : Binary64) : Binary64 :=
  let m := x.significand * y.significand
  match x.scale + y.scale with
  | .ofNat k => nearest (m * 2 ^ k) 1
  | .negSucc k => nearest m (2 ^ (k + 1))

/-- The quotient of a nonnegative finite double by a positive finite one, rounded once. -/
def divMagnitude (x y : Binary64) : Binary64 :=
  match x.scale - y.scale with
  | .ofNat k => nearest (x.significand * 2 ^ k) y.significand
  | .negSucc k => nearest x.significand (y.significand * 2 ^ (k + 1))

end Binary64

end HostView
