import HostView.Proofs.Exposure.LiveProperties
import HostView.Proofs.RequiredFields

/-! # Requests and their descriptions

A request to define a property of a live value reaches the handler as an object that describes it: the
object has what the request says, and nothing of what it leaves out. As long as no plain object inherits
such a part, the handler reads of it all that decides what becomes of the request.
-/

namespace HostView.Script

variable {call : Caller} {m m' : Machine} {target o : ObjectId} {name : String} {v : Value} {k : Key}
  {limit : Nat} {request d : Descriptor}

/-! ### Descriptions -/

namespace Descriptor

/-- The parts of a request, by their names. -/
def parts (d : Descriptor) : List (String × Option Value) :=
  [("get", d.get), ("set", d.set), ("value", d.value), ("writable", d.writable.map Value.bool),
    ("enumerable", d.enumerable.map Value.bool), ("configurable", d.configurable.map Value.bool)]

/-- What the object has that describes the request. -/
def members (d : Descriptor) : List (String × Value) :=
  d.parts.filterMap fun (name, v) => v.map (name, ·)

end Descriptor

/-- The request asks for an ordinary property with the value: neither for a getter or setter, nor for a
flag to be switched off. -/
structure Descriptor.Asks (d : Descriptor) (v : Value) : Prop where
  get : d.get = none
  set : d.set = none
  writable : d.writable ≠ some false
  enumerable : d.enumerable ≠ some false
  configurable : d.configurable ≠ some false
  value : d.value = some v

section

variable {members : List (String × Value)} (call : Caller)
  (hobject : m.object o = .plainWith members) (hfree : m.Free limit name)
  (hlimit : limit ≤ m.objects.size)

include hobject hfree hlimit

end

/-- No plain object inherits a part of a description. -/
def Engine.Undescribed (e : Engine) (limit : Nat) : Prop :=
  ∀ name ∈ Descriptor.empty.parts.map (·.1), e.Free limit name

theorem Engine.Undescribed.free {e : Engine} {part : Option Value} (h : e.Undescribed limit)
    (hpart : (name, part) ∈ request.parts) : e.Free limit name :=
  -- the parts of all requests have the same names
  have hname : name ∈ request.parts.map (·.1) := List.mem_map.mpr ⟨_, hpart, rfl⟩
  h name hname

theorem Engine.Undescribed.keeps {e e' : Engine} (h : e.Undescribed limit)
    (hkeeps : e.Keeps (· < limit) e') (hlimit : limit ≤ e.objects.size) : e'.Undescribed limit :=
  fun name hname => (h name hname).keeps hkeeps hlimit

section

variable (call : Caller) (hobject : m.object o = .plainWith request.members)
  (hfree : m.Undescribed limit) (hlimit : limit ≤ m.objects.size)

include hobject hfree hlimit

end

/-! ### Defining a property -/

section

variable {description : ObjectId} (target : ObjectId) (k : Key)
  (hread : Gives call m (readRequest description) d m')

include hread

end

end HostView.Script
