import HostView.Pattern.Basic

/-!
# Searching text for a pattern

A pattern is tried at a place of a text by following what it is made of, forward or backward. Where
there is a choice the first way is tried, and the others if what comes after it fails. What a
repetition adds beyond the least number of times must not be empty, so no repetition goes on for
ever.
-/

namespace HostView.Pattern

/-! ### Texts -/

/-- A text that is searched, and how its characters count. -/
structure Subject where
  units : Array UInt16
  unicode : Bool
  ignoreCase : Bool
  lines : Bool

namespace Subject

/-- The character that begins at a place, and the place after it. -/
def next? (s : Subject) (i : Nat) : Option (Nat × Nat) :=
  (s.units[i]?).map fun u =>
    match s.units[i + 1]? with
    | some v =>
      if s.unicode && Units.isHigh u && Units.isLow v then (Units.pairPoint u v, i + 2)
      else (u.toNat, i + 1)
    | none => (u.toNat, i + 1)

/-- The character that ends at a place, and the place before it. -/
def previous? (s : Subject) (i : Nat) : Option (Nat × Nat) :=
  if i = 0 then none
  else
    (s.units[i - 1]?).map fun v =>
      match if i = 1 then none else s.units[i - 2]? with
      | some u =>
        if s.unicode && Units.isHigh u && Units.isLow v then (Units.pairPoint u v, i - 2)
        else (v.toNat, i - 1)
      | none => (v.toNat, i - 1)

/-- The next character in a direction, and the place on its other side. -/
def step? (s : Subject) (backward : Bool) (i : Nat) : Option (Nat × Nat) :=
  if backward then s.previous? i else s.next? i

/-- The characters count as equal. -/
def equates (s : Subject) (c d : Nat) : Bool :=
  c = d || s.ignoreCase && folded s.unicode c = folded s.unicode d

/-- A character is among some. -/
def isIn (s : Subject) (set : CharSet) (c : Nat) : Bool :=
  (if s.ignoreCase then (equals s.unicode c).any (inRanges set.ranges)
    else inRanges set.ranges c) != set.negated

/-- A character of a word is at a place. -/
def isWord (s : Subject) (there : Option (Nat × Nat)) : Bool :=
  there.any fun (c, _) =>
    isWordCharacter c || s.ignoreCase && s.unicode && isWordCharacter (folded true c)

/-- What a pattern says of a place holds. -/
def holds (s : Subject) (p : Place) (i : Nat) : Bool :=
  match p with
  | .start => i = 0 || s.lines && (s.previous? i).any fun (c, _) => endsLine c
  | .finish => s.units.size ≤ i || s.lines && (s.next? i).any fun (c, _) => endsLine c
  | .boundary negated => (s.isWord (s.previous? i) != s.isWord (s.next? i)) != negated

end Subject

/-! ### Trying a pattern -/

/-- How far a trial has come: the place in the text, and where each remembered part begins and
ends. -/
structure Trial where
  place : Nat
  starts : Array (Option Nat)
  ends : Array (Option Nat)

namespace Trial

/-- A trial at a place, with so many parts to remember. -/
def new (place groups : Nat) : Trial :=
  ⟨place, Array.replicate groups none, Array.replicate groups none⟩

/-- Marks a side of a remembered part. -/
def mark (t : Trial) (index : Nat) (finish : Bool) : Trial :=
  if finish then { t with ends := t.ends.setIfInBounds index (some t.place) }
  else { t with starts := t.starts.setIfInBounds index (some t.place) }

/-- Forgets some parts. -/
def forget (t : Trial) (first last : Nat) : Trial :=
  (List.range (last - first)).foldl (fun t i =>
    { t with
      starts := t.starts.setIfInBounds (first + i) none
      ends := t.ends.setIfInBounds (first + i) none }) t

/-- The part that is remembered under a number. -/
def part? (t : Trial) (index : Nat) : Option (Nat × Nat) :=
  match t.starts[index]?.join, t.ends[index]?.join with
  | some a, some b => some (a, b)
  | _, _ => none

end Trial

/-- Takes a trial on, in every way until what comes after it succeeds. -/
abbrev Trying := Trial → (Trial → Option Trial) → Option Trial

/-- Tries one thing exactly so many times. -/
def repeated (m : Trying) : Nat → Trying
  | 0 => fun t k => k t
  | n + 1 => fun t k => m t fun t => repeated m n t k

/-- Tries one thing up to so many times, each time at another place. -/
def optionally (m : Trying) (greedy : Bool) : Nat → Trying
  | 0 => fun t k => k t
  | n + 1 => fun t k =>
    let again (_ : Unit) : Option Trial :=
      m t fun u => if u.place = t.place then none else optionally m greedy n u k
    if greedy then (again ()).orElse fun _ => k t else (k t).orElse again

/-- Compares a part of a text with what comes next, from either end of it. -/
def compare (s : Subject) (backward : Bool) (first last : Nat) : Nat → Nat → Option Nat
  | 0, i => some i
  | n + 1, i => do
    if last ≤ first then return i
    let (c, next) ← s.step? backward (if backward then last else first)
    let (d, j) ← s.step? backward i
    if !s.equates c d then none
    else if backward then compare s backward first next n j
    else compare s backward next last n j

/-- Tries what a pattern is made of. -/
def Node.trying (s : Subject) (backward : Bool) : Node → Trying
  | .empty => fun t k => k t
  | .char c => fun t k => do
    let (d, i) ← s.step? backward t.place
    if s.equates c d then k { t with place := i } else none
  | .set cs => fun t k => do
    let (d, i) ← s.step? backward t.place
    if s.isIn cs d then k { t with place := i } else none
  | .place p => fun t k => if s.holds p t.place then k t else none
  | .seq a b =>
    let m := a.trying s backward
    let n := b.trying s backward
    if backward then fun t k => n t fun t => m t k else fun t k => m t fun t => n t k
  | .either a b =>
    let m := a.trying s backward
    let n := b.trying s backward
    fun t k => (m t k).orElse fun _ => n t k
  | .group index a =>
    let m := a.trying s backward
    fun t k => m (t.mark index backward) fun t => k (t.mark index !backward)
  | .reference index => fun t k => do
    match t.part? index with
    | none => k t
    | some (first, last) =>
      k { t with place := ← compare s backward first last (s.units.size + 1) t.place }
  | .look behind negated a =>
    let m := a.trying s behind
    fun t k =>
      match m t some, negated with
      | none, true => k t
      | some u, false => k { u with place := t.place }
      | _, _ => none
  | .times least most greedy first last a =>
    let m := a.trying s backward
    let room := s.units.size + 1
    let more := match most with
      | some most => min (most - least) room
      | none => room
    fun t k =>
      let t := if least = 0 then t.forget first last else t
      repeated m least t fun t => optionally m greedy more t k

/-! ### Searching -/

/-- Looks for a pattern from a place on; the bound is on the number of places. -/
def searchFrom (p : Pattern) (s : Subject) : Nat → Nat → Option Trial
  | 0, _ => none
  | n + 1, i =>
    let start := (Trial.new i p.groups).mark 0 false
    match p.body.trying s false start fun t => some (t.mark 0 true) with
    | some t => some t
    | none =>
      if p.flags.sticky then none
      else
        match s.next? i with
        | some (_, j) => searchFrom p s n j
        | none => none

/-- The parts of a text that a pattern remembers where it first fits, from a place on. -/
def search (p : Pattern) (units : List UInt16) (start : Nat) : Option (List (Option (Nat × Nat))) :=
  let s : Subject :=
    ⟨units.toArray, p.flags.countsCharacters, p.flags.ignoreCase, p.flags.lines⟩
  (searchFrom p s (units.length + 1) start).map fun t => (List.range p.groups).map t.part?

end HostView.Pattern
