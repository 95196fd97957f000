import HostView.Proofs.Exposure.TableWrites
import HostView.Proofs.TableNames

/-! # Tables as maps that hosts and scripts share

A table is one finite map, however many objects stand for it and whoever writes. Each write that
succeeds changes the map at one key, one that fails changes nothing, and the host and every live value
report the map as it is at the time. What a function does that is called while a value is converted
comes before the write that the value is converted for.
-/

namespace HostView

/-- What a name of a key leads to. -/
def Holding.named (held : Holding) (key : AtomType) (name : String) : Option (Option Ref) :=
  (key.keyOfName name).toOption.bind held

namespace Script

open Discipline

variable {m : Machine} {s : Ref} {key : AtomType} {yieldType : Option HostType} {held : Holding}
  {keys : List Atom} {mask : Mask} {target : ObjectId} {n : Nat} {call call' : Caller}

/-! ### What is reported -/

/-- What a script is shown for what is held: a yield, or that the member is there. -/
def yieldValue (mask : Mask) : Option Ref → Action Value
  | some v => wrapValue mask v
  | none => return .bool true

/-- What is asked of an object that stands for the table is answered by what is held. -/
structure Machine.Answers (m : Machine) (target : ObjectId) (mask : Mask) (key : AtomType)
    (held : Holding) (keys : List Atom) : Prop where
  keys : ∀ call, Succeeds call m (hostKeys target) (keys.map fun a => a.render key) m
  has : ∀ call name, Succeeds call m (hostHas target (.name name)) (held.named key name).isSome m
  property : ∀ name, SameOn m (hostProperty target (.name name))
    (match held.named key name with
      | some yield => do return some (.plain (← yieldValue mask yield))
      | none => return none)
  present : ∀ name yield, held.named key name = some yield →
    SameOn m (hostGet target (.name name)) (do return .value (← yieldValue mask yield))
  /-- The method that takes a snapshot is read by its name, unless that is a key. -/
  absent : ∀ name a, key.keyOfName name = .ok a → held a = none → name ≠ "toJSON" →
    ∀ call, Succeeds call m (hostGet target (.name name)) (.value .undefined) m
  inherited : ∀ name fault, key.keyOfName name = .error fault → name ≠ "toJSON" →
    ∀ call, Succeeds call m (hostGet target (.name name)) .inherited m

namespace TableWrite

/-- No function that the write calls in passing changes a host value that was there: the write is as
it would be if such a call threw instead. -/
def Undisturbed (n : Nat) (m : Machine) (s : Ref) (w : TableWrite) : Prop :=
  w.perform (invoke n) m s = w.perform ((invoke n).sparing m.heap.cells.size) m s

end TableWrite

end Script

end HostView
