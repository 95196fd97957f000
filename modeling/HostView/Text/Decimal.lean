import HostView.Number.Power

/-!
# Decimal literals

Whole numbers as text: the digits of a number, and the literals that are read back. A literal is
an optional sign and a non-empty run of ASCII digits; leading zeros are allowed, blanks and
grouping marks are not. A bound is part of reading, so a literal outside it is no literal of that
kind.
-/

namespace HostView.Decimal

/-- The value of an ASCII digit. -/
def digit? (c : Char) : Option Nat :=
  if '0' ≤ c ∧ c ≤ '9' then some (c.toNat - '0'.toNat) else none

/-- The number written by a run of digits that continues after the digits of `value`. -/
def continueFrom (value : Nat) : List Char → Option Nat
  | [] => some value
  | c :: rest =>
    match digit? c with
    | some d => continueFrom (10 * value + d) rest
    | none => none

/-- The number written by a non-empty run of digits. -/
def ofDigits? : List Char → Option Nat
  | [] => none
  | c :: rest => continueFrom 0 (c :: rest)

/-- A literal without a sign, or with a plus sign. -/
def unsigned? : List Char → Option Nat
  | '+' :: rest => ofDigits? rest
  | cs => ofDigits? cs

/-- A literal with any sign or none. -/
def signed? : List Char → Option Int
  | '-' :: rest => (ofDigits? rest).map fun n => -(n : Int)
  | '+' :: rest => (ofDigits? rest).map Int.ofNat
  | cs => (ofDigits? cs).map Int.ofNat

/-- The natural number that `s` writes, if it is at most `limit`. -/
def natural? (limit : Nat) (s : String) : Option Nat :=
  match unsigned? s.toList with
  | some n => if n ≤ limit then some n else none
  | none => none

/-- The 64-bit unsigned number that `s` writes. -/
def uint64? (s : String) : Option UInt64 :=
  (natural? (2 ^ 64 - 1) s).map UInt64.ofNat

/-- The 64-bit signed number that `s` writes. -/
def int64? (s : String) : Option Int64 :=
  match signed? s.toList with
  | some i => if -2 ^ 63 ≤ i ∧ i < 2 ^ 63 then some (Int64.ofInt i) else none
  | none => none

/-- The decimal digits of a number, without leading zeros. -/
def digits (n : Nat) : List Char :=
  Nat.toDigits 10 n

/-- A natural number in decimal. -/
def ofNat (n : Nat) : String :=
  String.ofList (digits n)

/-- An integer in decimal, with a minus sign below zero. -/
def ofInt : Int → String
  | .ofNat n => ofNat n
  | .negSucc n => String.ofList ('-' :: digits (n + 1))

end HostView.Decimal
