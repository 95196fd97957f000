import HostView.Number.Shortest
import HostView.Text.Decimal

/-!
# Numbers as text

Three notations for a double, all over its shortest decimal. Host text never uses an exponent.
Script text uses one from 10 ^ 21 on and below 10 ^ -6. Document text is that of a number kept as
a double in a document: it always shows a point or an exponent.
-/

namespace HostView.Notation

open Shortest (Decimal shortest)

/-- `n` zeros. -/
def zeros (n : Nat) : List Char := List.replicate n '0'

/-- Digits with a point after the first `point` of them, in positional notation. A number of
`tail` after a whole number takes the place of its fraction. -/
def positional (digits : List Char) (point : Int) (tail : List Char) : List Char :=
  match point with
  | .negSucc k => '0' :: '.' :: zeros (k + 1) ++ digits
  | .ofNat 0 => '0' :: '.' :: digits
  | .ofNat n =>
    if digits.length ≤ n then digits ++ zeros (n - digits.length) ++ tail
    else digits.take n ++ '.' :: digits.drop n

/-- Digits with a point after the first and a power of ten; `plus` is written before an exponent
that is not negative. -/
def scientific (digits : List Char) (point : Int) (plus : List Char) : List Char :=
  let lead :=
    match digits with
    | [] => []
    | [d] => [d]
    | d :: rest => d :: '.' :: rest
  let power :=
    match point - 1 with
    | .ofNat n => plus ++ HostView.Decimal.digits n
    | .negSucc n => '-' :: HostView.Decimal.digits (n + 1)
  lead ++ 'e' :: power

/-- A notation for finite doubles and the names of the others. -/
structure Format where
  choice : Shortest.Choice
  nan : String
  infinity : String
  /-- The sign of zero is written. -/
  signedZero : Bool
  /-- Text after the digits of a whole number in positional notation. -/
  wholeTail : String
  /-- The positions of the point that are written without an exponent. -/
  isPositional : Int → Bool
  /-- Text between the mark of an exponent and its digits when it is not negative. -/
  plus : String

/-- Host text: all digits are written out. -/
def host : Format where
  choice := ⟨false, true⟩
  nan := "NaN"
  infinity := "inf"
  signedZero := true
  wholeTail := ""
  isPositional _ := true
  plus := ""

/-- Script text: an exponent is written for numbers of more than 21 digits and for fractions that
begin with more than five zeros. -/
def script : Format where
  choice := ⟨true, false⟩
  nan := "NaN"
  infinity := "Infinity"
  signedZero := false
  wholeTail := ""
  isPositional point := -6 < point && point ≤ 21
  plus := "+"

/-- Document text: an exponent is written for numbers of more than 16 digits and for fractions
that begin with more than four zeros. -/
def document : Format where
  choice := ⟨false, false⟩
  nan := "null"
  infinity := "null"
  signedZero := true
  wholeTail := ".0"
  isPositional point := -5 < point && point ≤ 16
  plus := "+"

/-- The text of a magnitude other than zero. -/
def Format.magnitude (format : Format) (x : Binary64) : List Char :=
  let d := shortest format.choice x
  let digits := HostView.Decimal.digits d.digits
  let point := (digits.length : Int) + d.exponent
  if format.isPositional point then positional digits point format.wholeTail.toList
  else scientific digits point format.plus.toList

/-- The text of a double. -/
def Format.render (format : Format) (x : Binary64) : String :=
  if x.isNaN then format.nan
  else if !x.isFinite then (if x.negative then "-" else "") ++ format.infinity
  else if x.isZero then
    let sign := if x.negative && format.signedZero then ['-'] else []
    String.ofList (sign ++ '0' :: format.wholeTail.toList)
  else String.ofList ((if x.negative then ['-'] else []) ++ format.magnitude x)

end HostView.Notation
