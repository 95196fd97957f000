import HostView.Number.Binary64
import HostView.Text.Decimal
import HostView.Text.Hexadecimal

/-!
# Text as a number

How a script takes text for a number. Blanks around the numeral do not count, and no numeral at
all is zero. A numeral is decimal, with a sign, a fraction and an exponent, or a whole number in
base 16, 8 or 2 after a mark for the base. The number is the double nearest to it.
-/

namespace HostView.Numeral

/-- The character separates numerals: a blank or an end of line. -/
def isBlank (c : Char) : Bool :=
  let n := c.toNat
  0x9 ≤ n && n ≤ 0xD || 0x2000 ≤ n && n ≤ 0x200A ||
    [0x20, 0xA0, 0x1680, 0x2028, 0x2029, 0x202F, 0x205F, 0x3000, 0xFEFF].contains n

/-- A text without the blanks around it. -/
def trim (cs : List Char) : List Char :=
  ((cs.dropWhile isBlank).reverse.dropWhile isBlank).reverse

/-- The number written by a non-empty run of digits of a base. -/
def inBase? (base : Nat) : List Char → Option Nat
  | [] => none
  | cs => cs.foldlM (fun n c =>
      (Hexadecimal.digit? c).bind fun d => if d < base then some (base * n + d) else none) 0

/-- The number `digits * 10 ^ exponent`. Powers far beyond the range of doubles are not formed. -/
def scaleBy (digits : Nat) (exponent : Int) : Binary64 :=
  let size : Int := (Decimal.digits digits).length + exponent
  if digits = 0 || size < -400 then .zero
  else if 400 < size then ⟨0x7FF0000000000000⟩
  else .nearest (digits * 10 ^ exponent.toNat) (10 ^ (-exponent).toNat)

/-- The exponent at the end of a numeral. -/
def exponent? : List Char → Option Int
  | [] => some 0
  | c :: rest => if c = 'e' ∨ c = 'E' then Decimal.signed? rest else none

/-- A decimal numeral without a sign. -/
def magnitude? (cs : List Char) : Option Binary64 := do
  if cs = "Infinity".toList then return ⟨0x7FF0000000000000⟩
  let isDigit (c : Char) : Bool := (Decimal.digit? c).isSome
  let whole := cs.takeWhile isDigit
  let (fraction, rest) :=
    match cs.dropWhile isDigit with
    | '.' :: rest => (rest.takeWhile isDigit, rest.dropWhile isDigit)
    | rest => ([], rest)
  let digits ← Decimal.ofDigits? (whole ++ fraction)
  return scaleBy digits ((← exponent? rest) - fraction.length)

/-- The number that a numeral without blanks around it writes. -/
def read? : List Char → Option Binary64
  | [] => some .zero
  | '0' :: 'x' :: rest | '0' :: 'X' :: rest => (inBase? 16 rest).map .ofNat
  | '0' :: 'o' :: rest | '0' :: 'O' :: rest => (inBase? 8 rest).map .ofNat
  | '0' :: 'b' :: rest | '0' :: 'B' :: rest => (inBase? 2 rest).map .ofNat
  | '-' :: rest => (magnitude? rest).map .neg
  | '+' :: rest => magnitude? rest
  | cs => magnitude? cs

/-- The number that a text is taken for, which is no number if the text is no numeral. -/
def value (s : String) : Binary64 := (read? (trim s.toList)).getD .nan

end HostView.Numeral
