import HostView.Script.Access

/-!
# The wraps behind objects

The object of a wrap stands for a host value until the wrap is released. An object that stands
before it, through proxies or as an heir, is recognized by the answer to a private symbol.
-/

namespace HostView.Script

/-- What the object of a live wrap stands for. -/
structure Receiver where
  value : Ref
  mask : Mask
  kind : WrapKind

namespace Machine

/-- The wrap that is attached to an object. -/
def wrapOf? (m : Machine) (o : ObjectId) : Option WrapId :=
  match (m.object o).kind with
  | .wrap w => some w
  | _ => none

/-- What the object of a wrap stands for, until the wrap is released. -/
def receiver? (m : Machine) (target : ObjectId) : Option Receiver := do
  let wrap ← m.wraps.wrap? (← m.wrapOf? target)
  let value ← wrap.value
  some ⟨value, wrap.mask, wrap.kind⟩

end Machine

/-- The wrap that an object is or stands before, if the bridge made it: a wrap is recognized by
its object, a live record or table by the answer to the private symbol, which every layer passes
on. An object that throws at the question is no wrap. -/
def unwrap (o : ObjectId) : Effect (Option WrapId) := do
  match (← get).wrapOf? o with
  | some w => return some w
  | none =>
    match ← (getProperty o (.symbol .tag)).run with
    | .ok (.object target) => return (← get).wrapOf? target
    | _ => return none

/-- The host value that an object is or stands before. -/
def unwrapValue (o : ObjectId) : Effect (Option Ref) := do
  let w ← unwrap o
  let m ← get
  return (w.bind m.wraps.wrap?).bind (·.value)

end HostView.Script
