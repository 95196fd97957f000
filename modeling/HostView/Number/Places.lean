import HostView.Number.Notation
import HostView.Text.Hexadecimal

/-!
# Numbers with a given count of digits

A double written with a fixed number of places, or with a fixed number of digits in all: the
decimal of that form nearest to it, a half going away from zero. In other bases a double is written
digit by digit, until what is left no longer matters.
-/

namespace HostView.Places

/-- The whole number nearest to a fraction, a half going up. -/
def nearestUp (num den : Nat) : Nat := (2 * num + den) / (2 * den)

/-- The magnitude of a finite double over `10 ^ exponent`, as a fraction. -/
def scaled (x : Binary64) (exponent : Int) : Nat × Nat :=
  (x.significand * 2 ^ x.scale.toNat * 10 ^ (-exponent).toNat,
    2 ^ (-x.scale).toNat * 10 ^ exponent.toNat)

/-- Digits with zeros before them up to a length. -/
def padded (length : Nat) (digits : List Char) : List Char :=
  Notation.zeros (length - digits.length) ++ digits

/-- The magnitude of a finite double with the given number of places. -/
def fixed (places : Nat) (x : Binary64) : List Char :=
  let (num, den) := scaled x (-places)
  let digits := padded (places + 1) (Decimal.digits (nearestUp num den))
  let whole := digits.take (digits.length - places)
  if places = 0 then whole else whole ++ '.' :: digits.drop (digits.length - places)

/-- The digits of the magnitude of a finite double, so many of them, and where the point stands
among them. -/
def significant (count : Nat) (x : Binary64) : List Char × Int :=
  if x.isZero then (Notation.zeros count, 1)
  else
    let point := Shortest.pointPosition x.significand x.scale
    let (num, den) := scaled x (point - count)
    let digits := Decimal.digits (nearestUp num den)
    if digits.length ≤ count then (digits, point) else (digits.take count, point + 1)

/-- The shortest digits of the magnitude of a finite double, and where the point stands among them.
-/
def shortest (x : Binary64) : List Char × Int :=
  if x.isZero then (['0'], 1)
  else
    let d := Shortest.shortest Notation.script.choice x
    let digits := Decimal.digits d.digits
    (digits, digits.length + d.exponent)

/-- Digits with a point after the first and an exponent. -/
def exponential (digits : List Char × Int) : List Char :=
  Notation.scientific digits.1 digits.2 ['+']

/-- So many digits, with an exponent if they do not reach the point or begin far behind it. -/
def precise (count : Nat) (x : Binary64) : List Char :=
  let (digits, point) := significant count x
  if -6 < point ∧ point ≤ count then Notation.positional digits point []
  else exponential (digits, point)

/-- A sign before the text of a magnitude. -/
def signed (x : Binary64) (magnitude : List Char) : String :=
  String.ofList (if x.negative then '-' :: magnitude else magnitude)

/-! ### Other bases -/

/-- The digits of a number in a base, lowest first; the bound is on their count. -/
def digitsIn (base : Nat) : Nat → Nat → List Nat
  | 0, _ => []
  | bound + 1, n => if n < base then [n] else n % base :: digitsIn base bound (n / base)

/-- The digits of a whole number in a base, lowest first. What does not fit the digits of a double
any more is divided as a double, and its digits are taken for zeros. -/
def roughDigits (base : Nat) : Nat → Nat → List Nat
  | 0, _ => []
  | bound + 1, n =>
    if n < base then [n]
    else
      let next := (Binary64.nearest n base).wholePart
      (if 2 ^ 53 - 1 ≤ next then 0 else n % base) :: roughDigits base bound next

/-- A fraction below one times a base: its whole part and what is left. -/
def shiftFraction (base : Nat) (x : Binary64) : Nat × Binary64 :=
  let y := x.mulMagnitude (.ofNat base)
  let den := 2 ^ (-y.scale).toNat
  (y.wholePart, .nearest (y.significand * 2 ^ y.scale.toNat % den) den)

/-- The digits of a fraction in a base, as long as the number that all digits make stays small, and
what is left of it; the bound is on their count. -/
def fractionDigits (base : Nat) : Nat → Nat → Binary64 → List Nat × Binary64
  | 0, _, x => ([], x)
  | bound + 1, n, x =>
    if x.isZero || (2 ^ 53 - 1) / 2 < n then ([], x)
    else
      let (d, rest) := shiftFraction base x
      let (digits, rest) := fractionDigits base bound (n * base + d) rest
      (d :: digits, rest)

/-- Adds one to the last of some digits, lowest first. -/
def increment (base : Nat) : List Nat → List Nat
  | [] => [1]
  | d :: rest => if d + 1 = base then 0 :: increment base rest else (d + 1) :: rest

/-- The magnitude of a finite double in a base. -/
def inBase (base : Nat) (x : Binary64) : List Char :=
  let whole := x.wholePart
  let wholeDigits :=
    if whole < 2 ^ 53 then digitsIn base 64 whole else roughDigits base 1100 whole
  let den := 2 ^ (-x.scale).toNat
  let fraction := Binary64.nearest (x.significand * 2 ^ x.scale.toNat % den) den
  let bound := (List.range 1075).countP fun k => base ^ k < 2 ^ 1074
  let (digits, rest) :=
    if 2 ^ 53 ≤ whole then ([], Binary64.zero) else fractionDigits base bound whole fraction
  let half := Binary64.ofNat (base / 2)
  let isUp := half.bits ≤ (rest.mulMagnitude (.ofNat base)).bits
  let all := digits.reverse ++ wholeDigits
  let all := if !digits.isEmpty && isUp then increment base all else all
  let fractional := ((all.take digits.length).dropWhile (· = 0)).reverse
  let text (ds : List Nat) : List Char := ds.map Hexadecimal.char
  let wholeText := text (all.drop digits.length).reverse
  if fractional.isEmpty then wholeText else wholeText ++ '.' :: text fractional

/-- A whole number in a base. -/
def integerInBase (base : Nat) (i : Int) : String :=
  let n := i.natAbs
  let digits := (digitsIn base (n.log2 + 1) n).reverse.map Hexadecimal.char
  String.ofList (if i < 0 then '-' :: digits else digits)

/-- A double in a base. -/
def render (base : Nat) (x : Binary64) : String :=
  if base = 10 || !x.isFinite || x.isZero then Notation.script.render x
  else signed x (inBase base x)

end HostView.Places
