import HostView.Text.Entries
import HostView.Text.Normal.Classes
import HostView.Text.Normal.Decompositions
import HostView.Text.Units
import Std.Data.HashMap

/-!
# Normal forms of text

A text may be written with characters that stand for several others, or with these, and marks may
follow a character in several orders. Its normal forms are unique: all characters are decomposed and
marks are put in the order of their classes, and then the characters are put together again if that
is wanted. The syllables of the Korean script are put together by rule.
-/

namespace HostView.Normal

/-- A normal form: whether compatible characters are decomposed as well, and whether the characters
are put together again. -/
structure Form where
  compatible : Bool
  composed : Bool

/-- The form of the given name. -/
def Form.ofName? (name : String) : Option Form :=
  if name = "NFC" then some ⟨false, true⟩
  else if name = "NFD" then some ⟨false, false⟩
  else if name = "NFKC" then some ⟨true, true⟩
  else if name = "NFKD" then some ⟨true, false⟩
  else none

/-! ### Tables -/

/-- The characters of a row. -/
def charactersOf (row : List Int) : List Nat := row.map Int.toNat

/-- The canonical decompositions. -/
def canonical : Std.HashMap Nat (List Nat) :=
  .ofList ((Entries.rows canonicalEntries).map fun (c, row) => (c, charactersOf row))

/-- The decompositions of characters that are only compatible with what they decompose to. -/
def compatible : Std.HashMap Nat (List Nat) :=
  .ofList ((Entries.rows compatibleEntries).map fun (c, row) => (c, charactersOf row))

/-- The classes of marks. -/
def classes : Std.HashMap Nat Nat :=
  .ofList ((Entries.rows classEntries).flatMap fun (first, row) =>
    match charactersOf row with
    | [count, mark] => (List.range count).map fun i => (first + i, mark)
    | _ => [])

/-- The class of a character; one that is no mark has the class zero. -/
def classOf (c : Nat) : Nat := classes.getD c 0

/-- The characters that are put together from others, by these. -/
def composites : Std.HashMap (List Nat) Nat :=
  let excluded := (Entries.rows excludedEntries).map (·.1)
  .ofList ((Entries.rows canonicalEntries).filterMap fun (c, row) =>
    if row.length < 2 || excluded.contains c then none else some (charactersOf row, c))

/-! ### Korean syllables -/

/-- The parts of a syllable. -/
def syllableParts? (c : Nat) : Option (List Nat) :=
  if 0xAC00 ≤ c && c < 0xAC00 + 11172 then
    let i := c - 0xAC00
    let final := if i % 28 = 0 then [] else [0x11A7 + i % 28]
    some ([0x1100 + i / 588, 0x1161 + i % 588 / 28] ++ final)
  else none

/-- The syllable that two characters make: a consonant and a vowel, or such a syllable and a final
consonant. -/
def syllable? (a b : Nat) : Option Nat :=
  if 0x1100 ≤ a && a < 0x1113 && 0x1161 ≤ b && b < 0x1176 then
    some (0xAC00 + ((a - 0x1100) * 21 + (b - 0x1161)) * 28)
  else if 0xAC00 ≤ a && a < 0xAC00 + 11172 && (a - 0xAC00) % 28 = 0 && 0x11A7 < b && b < 0x11C3 then
    some (a + (b - 0x11A7))
  else none

/-! ### Forms -/

/-- The characters that a character decomposes to. -/
def decompose (isCompatible : Bool) (c : Nat) : List Nat :=
  match syllableParts? c with
  | some parts => parts
  | none =>
    if isCompatible then ((compatible[c]?).or canonical[c]?).getD [c] else canonical.getD c [c]

/-- Puts a mark among others that are in the order of their classes and stand before it, last first.
-/
def insertMark (c : Nat) : List Nat → List Nat
  | [] => [c]
  | d :: rest => if classOf c < classOf d then d :: insertMark c rest else c :: d :: rest

/-- Puts runs of marks in the order of their classes; `marks` are those of the current run, last
first. -/
def orderFrom (marks : List Nat) : List Nat → List Nat
  | [] => marks.reverse
  | c :: rest =>
    if classOf c = 0 then marks.reverse ++ c :: orderFrom [] rest
    else orderFrom (insertMark c marks) rest

/-- A text with all characters decomposed. -/
def decomposed (isCompatible : Bool) (cs : List Nat) : List Nat :=
  orderFrom [] (cs.flatMap (decompose isCompatible))

/-- The character that two characters make. -/
def compose? (a b : Nat) : Option Nat :=
  (syllable? a b).or composites[canonical.getD a [a] ++ [b]]?

/-- Puts characters together. `start` is the last character that is no mark, `passed` are the marks
after it that stay, last first, and `last` is the class of the last of them. -/
def composeFrom (start : Nat) (passed : List Nat) (last : Nat) : List Nat → List Nat
  | [] => start :: passed.reverse
  | c :: rest =>
    let k := classOf c
    let isBlocked := !passed.isEmpty && (last = 0 || k ≤ last)
    match if isBlocked then none else compose? start c with
    | some d => composeFrom d passed last rest
    | none =>
      if k = 0 then start :: passed.reverse ++ composeFrom c [] 0 rest
      else composeFrom start (c :: passed) k rest

/-- A decomposed text with the characters put together. -/
def composed (cs : List Nat) : List Nat :=
  match cs.span fun c => classOf c ≠ 0 with
  | (marks, []) => marks
  | (marks, start :: rest) => marks ++ composeFrom start [] 0 rest

/-- A text in a normal form. -/
def normalize (form : Form) (cs : List Nat) : List Nat :=
  let cs := decomposed form.compatible cs
  if form.composed then composed cs else cs

end HostView.Normal
