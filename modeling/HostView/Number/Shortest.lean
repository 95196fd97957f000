import HostView.Number.Binary64

/-!
# Shortest decimal digits

A finite double is named by any decimal that is nearer to it than to its neighbours. `shortest`
finds such a decimal with the fewest digits. The search goes through the decimal grids of 1, 2, …
17 digits, tests the two grid points beside the number in exact integer arithmetic, and stops at
the first grid with a hit. Readers differ in two decisions, which are the fields of `Choice`.
-/

namespace HostView.Shortest

/-- How a decimal is chosen on the grid that is searched. -/
structure Choice where
  /-- Only the grid point nearest to the number is tried, rather than both beside it. -/
  nearestOnly : Bool
  /-- Of two grid points equally near the larger one is taken, rather than the even one. -/
  tieUp : Bool

/-- The decimal `digits * 10 ^ exponent`. -/
structure Decimal where
  digits : Nat
  exponent : Int
  deriving DecidableEq

/-- Compares `a * 2 ^ p` with `c * 10 ^ t`. -/
def compareScaled (a : Nat) (p : Int) (c : Nat) (t : Int) : Ordering :=
  compare (a * 2 ^ p.toNat * 10 ^ (-t).toNat) (c * 10 ^ t.toNat * 2 ^ (-p).toNat)

/-- The decimals `c * 10 ^ t` that read back as `m * 2 ^ q`: those within half a unit of the last
place on either side, a quarter below a power of two, the ends included for an even significand.
-/
def readsBack (m : Nat) (q : Int) (c : Nat) (t : Int) : Bool :=
  let below := if m = 2 ^ 52 ∧ -1074 < q then 4 * m - 1 else 4 * m - 2
  let low := compareScaled below (q - 2) c t
  let high := compareScaled (4 * m + 2) (q - 2) c t
  if m % 2 = 0 then low != .gt && high != .lt else low == .lt && high == .gt

/-- The largest whole `c` with `c * 10 ^ t ≤ m * 2 ^ q`. -/
def gridFloor (m : Nat) (q : Int) (t : Int) : Nat :=
  m * 2 ^ q.toNat * 10 ^ (-t).toNat / (10 ^ t.toNat * 2 ^ (-q).toNat)

/-- The number of digits before the decimal point of `m * 2 ^ q`: zero or less below one tenth. -/
def pointPosition (m : Nat) (q : Int) : Int :=
  let guess := ((m.log2 : Int) + q) * 30103 / 100000
  if compareScaled m q 1 guess == .lt then guess
  else if compareScaled m q 1 (guess + 1) == .lt then guess + 1
  else guess + 2

/-- The decimal that `choice` takes on the grid of multiples of `10 ^ t`, if one reads back. -/
def onGrid? (choice : Choice) (m : Nat) (q t : Int) : Option Nat :=
  let floor := gridFloor m q t
  let upper :=
    match compareScaled (2 * m) q (2 * floor + 1) t with
    | .lt => false
    | .gt => true
    | .eq => choice.tieUp || floor % 2 = 1
  let near := if upper then floor + 1 else floor
  let far := if upper then floor else floor + 1
  if readsBack m q near t then some near
  else if !choice.nearestOnly && readsBack m q far t then some far
  else none

/-- The first hit among the grids of `n`, `n + 1`, … digits, `fuel` grids in all; the last grid
tried is taken as it stands. -/
def search (choice : Choice) (m : Nat) (q point : Int) : Nat → Nat → Decimal
  | 0, n => ⟨gridFloor m q (point - n), point - n⟩
  | fuel + 1, n =>
    match onGrid? choice m q (point - n) with
    | some c => ⟨c, point - n⟩
    | none => search choice m q point fuel (n + 1)

/-- Moves trailing zeros from the digits into the exponent, `fuel` of them at most. -/
def Decimal.strip : Nat → Decimal → Decimal
  | 0, d => d
  | fuel + 1, d =>
    if d.digits ≠ 0 ∧ d.digits % 10 = 0 then strip fuel ⟨d.digits / 10, d.exponent + 1⟩ else d

/-- The shortest decimal that names the magnitude of a finite double other than zero. -/
def shortest (choice : Choice) (x : Binary64) : Decimal :=
  let m := x.significand
  let q := x.scale
  (search choice m q (pointPosition m q) 17 1).strip 18

end HostView.Shortest
