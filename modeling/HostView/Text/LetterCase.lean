import HostView.Text.Entries
import HostView.Text.LetterCase.Tables
import HostView.Text.Units

/-!
# Capital and small letters

The forms of letters in capitals and in small letters. The capital form of a character may be
several characters. The Greek sigma has two small forms, of which one stands at the end of words:
after a letter and before none, where marks that belong to letters do not count.
-/

namespace HostView.LetterCase

/-! ### Single characters -/

/-- A run of characters with another form: the first and the last, the distance of neighbours, and
how far the other form is from the character. -/
structure Run where
  first : Nat
  last : Nat
  step : Nat
  shift : Int

/-- The run that a row of a table tells. -/
def Run.ofRow : Nat × List Int → Run
  | (first, [count, step, shift]) => ⟨first, first + (count * step).toNat, step.toNat, shift⟩
  | (first, count :: _) => ⟨first, first + count.toNat, 1, 0⟩
  | (first, []) => ⟨first, first, 1, 0⟩

/-- The character belongs to the run. -/
def Run.has (r : Run) (c : Nat) : Bool :=
  r.first ≤ c && c ≤ r.last && (c - r.first) % r.step == 0

/-- The runs of a table. -/
def runsOf (text : String) : List Run := (Entries.rows text).map Run.ofRow

/-- The characters with a capital form that is one character. -/
def capitals : List Run := runsOf capitalEntries

/-- The characters with a small form. -/
def smalls : List Run := runsOf smallEntries

/-- The characters with a capital form of several characters. -/
def longCapitals : List (Nat × List Nat) :=
  (Entries.rows longCapitalEntries).map fun (c, form) => (c, form.map Int.toNat)

/-- The letters that have a case. -/
def casedRuns : List Run := runsOf casedEntries

/-- The characters that are passed over where the case of a neighbour matters. -/
def ignorableRuns : List Run := runsOf ignorableEntries

/-- The form of a character that some runs give. -/
def formIn (runs : List Run) (c : Nat) : Nat :=
  match runs.find? (·.has c) with
  | some r => (c + r.shift).toNat
  | none => c

/-- The form of a character in capitals. -/
def upper (c : Nat) : List Nat :=
  match longCapitals.lookup c with
  | some form => form
  | none => [formIn capitals c]

/-- The form of a character in small letters, wherever it stands. -/
def lower (c : Nat) : List Nat :=
  if c = 0x130 then [0x69, 0x307] else [formIn smalls c]

/-! ### Texts -/

/-- A text in capitals. -/
def upperText (units : List UInt16) : List UInt16 :=
  Units.ofPoints ((Units.points units).flatMap upper)

/-- The nearest character that is not passed over is a letter with a case. -/
def meetsCased (cs : List Nat) : Bool :=
  match cs.dropWhile fun c => ignorableRuns.any (·.has c) with
  | [] => false
  | c :: _ => casedRuns.any (·.has c)

/-- Characters in small letters; `before` are those that were passed, last first. -/
def lowerFrom (before : List Nat) : List Nat → List Nat
  | [] => []
  | c :: rest =>
    let form := if c = 0x3A3 && meetsCased before && !meetsCased rest then [0x3C2] else lower c
    form ++ lowerFrom (c :: before) rest

/-- A text in small letters. -/
def lowerText (units : List UInt16) : List UInt16 :=
  Units.ofPoints (lowerFrom [] (Units.points units))

/-! ### Comparison -/

/-- The form by which characters are compared where their case does not matter: the capital, if it
is one character and not an ASCII letter for another one. -/
def folded (c : Nat) : Nat :=
  match upper c with
  | [d] => if 128 ≤ c && d < 128 then c else d
  | _ => c

end HostView.LetterCase
