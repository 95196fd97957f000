import HostView.Text.LetterCase
import HostView.Text.Units

/-!
# Patterns

A pattern describes texts: which characters may stand where, how often, and which parts of the text
are remembered. Characters are given by their numbers. In a pattern for units of text a character is
one unit; otherwise the two halves of a surrogate pair are one character.
-/

namespace HostView.Pattern

/-! ### Characters -/

/-- Some characters: those in one of the ranges, or all others. -/
structure CharSet where
  ranges : List (Nat × Nat)
  negated : Bool

/-- A character is in one of some ranges. -/
def inRanges (ranges : List (Nat × Nat)) (c : Nat) : Bool :=
  ranges.any fun (first, last) => first ≤ c && c ≤ last

/-- What lies between ranges, which are in order, from a character on. -/
def between (first : Nat) : List (Nat × Nat) → List (Nat × Nat)
  | [] => [(first, 0x10FFFF)]
  | (a, b) :: rest =>
    if first < a then (first, a - 1) :: between (b + 1) rest else between (b + 1) rest

/-- The digits. -/
def digits : List (Nat × Nat) := [(0x30, 0x39)]

/-- The characters of words. -/
def wordCharacters : List (Nat × Nat) := [(0x30, 0x39), (0x41, 0x5A), (0x5F, 0x5F), (0x61, 0x7A)]

/-- The blanks, ends of lines included. -/
def blanks : List (Nat × Nat) :=
  [(0x9, 0xD), (0x20, 0x20), (0xA0, 0xA0), (0x1680, 0x1680), (0x2000, 0x200A), (0x2028, 0x2029),
    (0x202F, 0x202F), (0x205F, 0x205F), (0x3000, 0x3000), (0xFEFF, 0xFEFF)]

/-- The characters that end a line. -/
def lineEnds : List (Nat × Nat) := [(0xA, 0xA), (0xD, 0xD), (0x2028, 0x2029)]

/-- The character belongs to a word. -/
def isWordCharacter (c : Nat) : Bool := inRanges wordCharacters c

/-- The character ends a line. -/
def endsLine (c : Nat) : Bool := inRanges lineEnds c

/-! ### Characters whose case does not matter -/

/-- The form of a character by which it is compared where case does not matter. For units it is the
capital; for characters it is the small letter of that. -/
def folded (unicode : Bool) (c : Nat) : Nat :=
  if unicode then
    match LetterCase.upper c with
    | [d] =>
      match LetterCase.lower d with
      | [e] => if 128 ≤ c && e < 128 && c != 0x17F && c != 0x212A then c else e
      | _ => c
    | _ =>
      match LetterCase.lower c with
      | [e] => e
      | _ => c
  else LetterCase.folded c

/-- The characters that some runs turn into one. -/
def sources (runs : List LetterCase.Run) (c : Nat) : List Nat :=
  runs.filterMap fun r =>
    let d := (c : Int) - r.shift
    if 0 ≤ d && r.has d.toNat then some d.toNat else none

/-- The characters that are equal to one where case does not matter. -/
def equals (unicode : Bool) (c : Nat) : List Nat :=
  let forms := [c, folded unicode c] ++ LetterCase.upper c ++ LetterCase.lower c
  let near := forms ++ forms.flatMap (sources LetterCase.capitals) ++
    forms.flatMap (sources LetterCase.smalls)
  near.filter fun d => folded unicode d = folded unicode c

/-! ### Flags -/

/-- How a pattern is to be used. -/
structure Flags where
  /-- The places of remembered parts are told. -/
  indices : Bool
  /-- Everything that the pattern describes is looked for. -/
  everywhere : Bool
  ignoreCase : Bool
  /-- Texts have several lines. -/
  lines : Bool
  /-- A dot also stands for the end of a line. -/
  dotAll : Bool
  /-- Characters count, not units. -/
  unicode : Bool
  unicodeSets : Bool
  /-- The text must begin where the search begins. -/
  sticky : Bool

namespace Flags

/-- No flags. -/
def none : Flags := ⟨false, false, false, false, false, false, false, false⟩

/-- The flag of a letter, if it is set. -/
def has (f : Flags) (letter : Char) : Bool :=
  match letter with
  | 'd' => f.indices
  | 'g' => f.everywhere
  | 'i' => f.ignoreCase
  | 'm' => f.lines
  | 's' => f.dotAll
  | 'u' => f.unicode
  | 'v' => f.unicodeSets
  | 'y' => f.sticky
  | _ => false

/-- Sets the flag of a letter, which must be one that was not set before. -/
def add? (f : Flags) (letter : Char) : Option Flags :=
  if f.has letter then .none
  else
    match letter with
    | 'd' => some { f with indices := true }
    | 'g' => some { f with everywhere := true }
    | 'i' => some { f with ignoreCase := true }
    | 'm' => some { f with lines := true }
    | 's' => some { f with dotAll := true }
    | 'u' => some { f with unicode := true }
    | 'v' => some { f with unicodeSets := true }
    | 'y' => some { f with sticky := true }
    | _ => .none

/-- The flags that a text names; the two that concern characters exclude each other. -/
def ofText? (text : String) : Option Flags := do
  let f ← text.toList.foldlM add? none
  if f.unicode && f.unicodeSets then .none else some f

/-- Characters count, not units. -/
def countsCharacters (f : Flags) : Bool := f.unicode || f.unicodeSets

end Flags

/-! ### Patterns -/

/-- What a pattern says of a place in a text. -/
inductive Place where
  /-- It is the start of the text, or of a line. -/
  | start
  /-- It is the end of the text, or of a line. -/
  | finish
  /-- A word begins or ends there, or none does. -/
  | boundary (negated : Bool)
  deriving DecidableEq

/-- What a pattern is made of. -/
inductive Node where
  | empty
  | char (c : Nat)
  | set (s : CharSet)
  | place (p : Place)
  | seq (a b : Node)
  | either (a b : Node)
  /-- Remembers the part of the text under a number. -/
  | group (index : Nat) (a : Node)
  /-- The text that was remembered under a number. -/
  | reference (index : Nat)
  /-- What follows or goes before, or must not do so. -/
  | look (behind negated : Bool) (a : Node)
  /-- As many times as possible, or as few if it is not greedy; the groups from `first` to before
  `last` are in it. -/
  | times (least : Nat) (most : Option Nat) (greedy : Bool) (first last : Nat) (a : Node)

end Pattern

/-- A pattern: its text, and what that says. The groups that have names are given with these. -/
structure Pattern where
  source : ScriptString
  flags : Pattern.Flags
  body : Pattern.Node
  /-- How many parts are remembered, with the whole. -/
  groups : Nat
  names : List (Nat × ScriptString)

end HostView
