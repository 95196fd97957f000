import HostView.Script.Library.Texts

/-!
# Texts put in the place of others

In the text that replaces another, a dollar sign and what follows it stand for the replaced text,
for what goes before or after that, or for a part that a pattern remembers.
-/

namespace HostView.Script

/-- What a replacing text may refer to. -/
structure Replaced where
  /-- The whole text, the replaced part of it, and where that stands. -/
  units : List UInt16
  part : List UInt16
  place : Nat
  /-- The parts that a pattern remembers, from the second on; one may be missing. -/
  groups : List Value
  /-- An object that holds the remembered parts that have names. -/
  names : Value

namespace Replaced

/-- The decimal digit that a unit is. -/
def digit? (u : UInt16) : Option Nat :=
  if 0x30 ≤ u && u ≤ 0x39 then some (u.toNat - 0x30) else none

/-- The remembered part of a number, if there is such a part. -/
def group? (r : Replaced) (n : Nat) : Option Value := if n = 0 then none else r.groups[n - 1]?

/-- The units of a remembered part; one that is missing has none. -/
def unitsOf (v : Value) : Routine (List UInt16) := do
  if v = .undefined then return [] else return (← textFor v).units

/-- The remembered part that digits name, two of them if there are so many parts; with what follows
the digits. -/
def numbered? (r : Replaced) : List UInt16 → Option (Value × List UInt16)
  | [] => none
  | u :: rest => do
    let d ← digit? u
    let two : Option (Value × List UInt16) := do
      let e ← rest.head?.bind digit?
      return (← r.group? (10 * d + e), rest.drop 1)
    two.or ((r.group? d).map fun v => (v, rest))

/-- What a dollar sign stands for with what follows it, and what comes after that. -/
def reference (r : Replaced) (rest : List UInt16) : Routine (List UInt16 × List UInt16) := do
  let literal : List UInt16 × List UInt16 := ([0x24], rest)
  match rest with
  | [] => return literal
  | u :: after =>
    if u = 0x24 then return ([0x24], after)
    else if u = 0x26 then return (r.part, after)
    else if u = 0x60 then return (r.units.take r.place, after)
    else if u = 0x27 then return (r.units.drop (r.place + r.part.length), after)
    else if u = 0x3C && r.names ≠ .undefined then
      match Units.indexOf? [0x3E] after with
      | none => return literal
      | some n => do
        let v ← readFrom r.names (.string (.ofUnits (after.take n)))
        return (← unitsOf v, after.drop (n + 1))
    else
      match r.numbered? rest with
      | some (v, after) => return (← unitsOf v, after)
      | none => return literal

/-- A replacing text, with all that its dollar signs stand for. The bound is on its length. -/
def substituteFrom (r : Replaced) : Nat → List UInt16 → Routine (List UInt16)
  | 0, _ | _, [] => return []
  | n + 1, u :: rest =>
    if u = 0x24 then do
      let (units, rest) ← r.reference rest
      return units ++ (← r.substituteFrom n rest)
    else do return u :: (← r.substituteFrom n rest)

/-- A replacing text, with all that its dollar signs stand for. -/
def substitute (r : Replaced) (text : List UInt16) : Routine (List UInt16) :=
  r.substituteFrom (text.length + 1) text

end Replaced

end HostView.Script
