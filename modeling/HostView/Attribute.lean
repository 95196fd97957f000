import HostView.Json.Document

/-!
# Field attributes and masks

A record field carries a set of attributes. A mask is a set of attributes too: it exposes the
fields that carry all of its attributes, so the empty mask exposes every field and a larger mask
fewer.
-/

namespace HostView

/-- A set of field attributes, one bit each. -/
structure Attributes where
  bits : UInt32
  deriving DecidableEq

namespace Attributes

/-- No attribute. -/
def none : Attributes := ⟨0⟩

/-- The field is written to logs. -/
def log : Attributes := ⟨1⟩

/-- The field may be unset. -/
def optional : Attributes := ⟨2⟩

/-- All attributes of `b` are among those of `a`. -/
def contains (a b : Attributes) : Bool :=
  a.bits &&& b.bits = b.bits

/-- The attributes of either set. -/
def union (a b : Attributes) : Attributes :=
  ⟨a.bits ||| b.bits⟩

instance : OrOp Attributes := ⟨union⟩

/-- The field is written to logs. -/
def isLoggable (a : Attributes) : Bool := a.contains log

/-- The field may be unset. -/
def isOptional (a : Attributes) : Bool := a.contains optional

/-- A set is stored as the number with its bits. -/
def toJson (a : Attributes) : Json := .number (.natural a.bits.toNat)

/-- The set that a document stores. -/
def ofJson? (j : Json) : Option Attributes :=
  (j.naturalUpTo? (2 ^ 32 - 1)).map fun n => ⟨.ofNat n⟩

/-- The names of the attributes. -/
def render (a : Attributes) : String :=
  let log := if a.isLoggable then ["&log"] else []
  let optional := if a.isOptional then ["&optional"] else []
  " ".intercalate (log ++ optional)

end Attributes

/-- The attributes that a field must carry to be seen. -/
structure Mask where
  bits : UInt32
  deriving DecidableEq

namespace Mask

/-- Every field is seen. -/
def all : Mask := ⟨0⟩

/-- The fields that are written to logs are seen. -/
def loggable : Mask := ⟨1⟩

/-- Asks for the given attributes. -/
def ofAttributes (a : Attributes) : Mask := ⟨a.bits⟩

/-- Asks for nothing. -/
def isEmpty (m : Mask) : Bool := m.bits = 0

/-- A mask is stored as the number with its bits. -/
def toJson (m : Mask) : Json := .number (.natural m.bits.toNat)

/-- The mask that a document stores. -/
def ofJson? (j : Json) : Option Mask :=
  (j.naturalUpTo? (2 ^ 32 - 1)).map fun n => ⟨.ofNat n⟩

/-- A field with the given attributes is seen. -/
def exposes (m : Mask) (a : Attributes) : Bool :=
  a.bits &&& m.bits = m.bits

end Mask

end HostView
