import HostView.Json.Document
import HostView.Text.Decimal
import HostView.Text.Hexadecimal

/-!
# Reading documents

The JSON grammar over characters. Reading is strict: one value, blanks around it, nothing after
it. Numbers follow a two-step rule. As many leading digits as fit into 64 bits form a whole
number; what remains is a power of ten, and the double is obtained by one multiplication or
division by it. So a number of many digits may be read one unit of the last place away from the
nearest double.
-/

namespace HostView.Json

/-- The double nearest to a power of ten. -/
def powerOfTen (k : Nat) : Binary64 := .nearest (10 ^ k) 1

/-- Divides by `10 ^ 308` until a division by a smaller power remains. -/
def shiftDown (f : Binary64) (k : Nat) : Binary64 :=
  if k ≤ 308 then f.divMagnitude (powerOfTen k)
  else if f.isZero then f
  else shiftDown (f.divMagnitude (powerOfTen 308)) (k - 308)
termination_by k
decreasing_by omega

/-- The double that `significand * 10 ^ exponent` is read as. -/
def fromParts (significand : Nat) (exponent : Int) : Binary64 :=
  let f := Binary64.ofNat significand
  match exponent with
  | .ofNat k =>
    if k ≤ 308 then f.mulMagnitude (powerOfTen k)
    else if f.isZero then f else ⟨0x7FF0000000000000⟩
  | .negSucc k => shiftDown f (k + 1)

/-- A decimal digit at the head of the text. -/
def takeDigit? : List Char → Option (Nat × List Char)
  | c :: rest => (Decimal.digit? c).map (·, rest)
  | [] => none

/-- Digits of a whole number: the number formed by those that fit into 64 bits, and how many more
there are. -/
def wholeDigits (significand dropped : Nat) : List Char → Nat × Nat × List Char
  | [] => (significand, dropped, [])
  | c :: rest =>
    match Decimal.digit? c with
    | none => (significand, dropped, c :: rest)
    | some d =>
      if dropped = 0 ∧ significand * 10 + d < 2 ^ 64 then wholeDigits (significand * 10 + d) 0 rest
      else wholeDigits significand (dropped + 1) rest

/-- Digits of a fraction: those that fit are appended to the significand, and counted. -/
def fractionDigits (significand count : Nat) (full : Bool) : List Char → Nat × Nat × List Char
  | [] => (significand, count, [])
  | c :: rest =>
    match Decimal.digit? c with
    | none => (significand, count, c :: rest)
    | some d =>
      if !full && significand * 10 + d < 2 ^ 64 then
        fractionDigits (significand * 10 + d) (count + 1) false rest
      else fractionDigits significand count true rest

/-- An exponent after its mark, limited to what changes a result. -/
def exponent? (cs : List Char) : Option (Int × List Char) := do
  let (minus, cs) := match cs with
    | '+' :: rest => (false, rest)
    | '-' :: rest => (true, rest)
    | _ => (false, cs)
  let _ ← takeDigit? cs
  let (value, dropped, rest) := wholeDigits 0 0 cs
  let size : Nat := if dropped = 0 then min value (2 ^ 31) else 2 ^ 31
  some (if minus then -(size : Int) else size, rest)

/-- A number, after its sign. -/
def magnitude? (minus : Bool) (cs : List Char) : Option (Number × List Char) := do
  let (first, afterFirst) ← takeDigit? cs
  let (whole, dropped, cs) :=
    if first = 0 then (0, 0, afterFirst) else wholeDigits 0 0 cs
  if first = 0 ∧ (takeDigit? cs).isSome then none
  let sign (x : Binary64) : Number := .real (if minus then x.neg else x)
  let finish (significand : Nat) (exponent : Int) (cs : List Char) : Option (Number × List Char) :=
    match cs with
    | 'e' :: rest | 'E' :: rest => do
      let (e, rest) ← exponent? rest
      some (sign (fromParts significand (exponent + e)), rest)
    | _ => some (sign (fromParts significand exponent), cs)
  match cs with
  | '.' :: rest =>
    let _ ← takeDigit? rest
    let (significand, count, rest) := fractionDigits whole 0 false rest
    finish significand ((dropped : Int) - count) rest
  | 'e' :: _ | 'E' :: _ => finish whole dropped cs
  | _ =>
    if dropped ≠ 0 then some (sign (fromParts whole dropped), cs)
    else if !minus then some (.natural whole, cs)
    else if 0 < whole ∧ whole ≤ 2 ^ 63 then some (.negative (whole - 1), cs)
    else some (sign (.ofNat whole), cs)

/-- A number at the head of the text. -/
def number? : List Char → Option (Number × List Char)
  | '-' :: rest => magnitude? true rest
  | cs => magnitude? false cs

/-- The unit written by four hexadecimal digits. -/
def hexUnit? (a b c d : Char) : Option UInt16 :=
  (Hexadecimal.ofDigits? [a, b, c, d]).map UInt16.ofNat

/-- The character that a one-letter escape stands for. -/
def escape? : Char → Option Char
  | '"' => some '"'
  | '\\' => some '\\'
  | '/' => some '/'
  | 'b' => some '\x08'
  | 'f' => some '\x0c'
  | 'n' => some '\n'
  | 'r' => some '\r'
  | 't' => some '\t'
  | _ => none

/-- The rest of a string after its opening quote; `units` are those read so far, last first. -/
def stringTail? (units : List UInt16) : List Char → Option (ScriptString × List Char)
  | [] => none
  | '"' :: rest => some (.ofUnits units.reverse, rest)
  | '\\' :: 'u' :: a :: b :: c :: d :: rest =>
    match hexUnit? a b c d with
    | some u => stringTail? (u :: units) rest
    | none => none
  | '\\' :: c :: rest =>
    match escape? c with
    | some e => stringTail? ((Units.ofChar e).reverse ++ units) rest
    | none => none
  | c :: rest =>
    if c.toNat < 0x20 then none else stringTail? ((Units.ofChar c).reverse ++ units) rest

/-- Drops the blanks at the head of the text. -/
def skipBlanks : List Char → List Char
  | c :: rest => if c = ' ' ∨ c = '\n' ∨ c = '\t' ∨ c = '\r' then skipBlanks rest else c :: rest
  | [] => []

mutual

/-- A value at the head of the text. -/
def readValue? : Nat → List Char → Option (Json × List Char)
  | 0, _ => none
  | fuel + 1, cs =>
    match skipBlanks cs with
    | 'n' :: 'u' :: 'l' :: 'l' :: rest => some (.null, rest)
    | 't' :: 'r' :: 'u' :: 'e' :: rest => some (.bool true, rest)
    | 'f' :: 'a' :: 'l' :: 's' :: 'e' :: rest => some (.bool false, rest)
    | '"' :: rest => (stringTail? [] rest).map fun (s, rest) => (.string s, rest)
    | '[' :: rest =>
      match skipBlanks rest with
      | ']' :: rest => some (.array [], rest)
      | rest => (readItems? fuel [] rest).map fun (items, rest) => (.array items, rest)
    | '\x7b' :: rest =>
      match skipBlanks rest with
      | '\x7d' :: rest => some (.object [], rest)
      | rest => (readMembers? fuel [] rest).map fun (members, rest) => (.object members, rest)
    | rest => (number? rest).map fun (n, rest) => (.number n, rest)

/-- The rest of an array from an item on; `done` are the items before it, last first. -/
def readItems? : Nat → List Json → List Char → Option (List Json × List Char)
  | 0, _, _ => none
  | fuel + 1, done, cs =>
    match readValue? fuel cs with
    | none => none
    | some (item, rest) =>
      match skipBlanks rest with
      | ',' :: rest => readItems? fuel (item :: done) rest
      | ']' :: rest => some ((item :: done).reverse, rest)
      | _ => none

/-- The rest of an object from a name on; `done` are the members before it, last first. -/
def readMembers? : Nat → List (ScriptString × Json) → List Char →
    Option (List (ScriptString × Json) × List Char)
  | 0, _, _ => none
  | fuel + 1, done, cs =>
    match skipBlanks cs with
    | '"' :: rest =>
      match stringTail? [] rest with
      | none => none
      | some (name, rest) =>
        match skipBlanks rest with
        | ':' :: rest =>
          match readValue? fuel rest with
          | none => none
          | some (item, rest) =>
            match skipBlanks rest with
            | ',' :: rest => readMembers? fuel ((name, item) :: done) rest
            | '\x7d' :: rest => some (((name, item) :: done).reverse, rest)
            | _ => none
        | _ => none
    | _ => none

end

/-- The document that `s` writes. Every step of reading consumes a character, so the fuel given,
two steps for each character, is never used up. -/
def parse? (s : String) : Option Json := do
  let cs := s.toList
  let (j, rest) ← readValue? (2 * cs.length + 2) cs
  if skipBlanks rest = [] then some j else none

end HostView.Json
