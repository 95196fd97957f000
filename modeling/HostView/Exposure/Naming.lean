import HostView.Exposure.Fault
import HostView.Host.Atom
import HostView.Script.Value

/-!
# Property names as table keys

A table is read and written through properties named by its keys. A name is resolved by the type
of the keys. Names that are array indices take a direct way, which gives the same keys; that way
is chosen by the form of the name alone. Several names may denote one key: an integer may have
leading zeros or a plus sign, an address other spellings.
-/

namespace HostView

/-- What a port literal looks like, for diagnostics. -/
def portForm : String := "port string like '80/tcp' or \x7bport, proto\x7d object"

/-- The key that a name denotes. -/
def AtomType.keyOfName (τ : AtomType) (name : String) : Except ConversionFault Atom :=
  match τ with
  | .bool =>
    if name = "T" ∨ name = "true" then .ok (.bool true)
    else if name = "F" ∨ name = "false" then .ok (.bool false)
    else .error (.invalid "boolean key" name)
  | .int =>
    match Decimal.int64? name with
    | some i => .ok (.int i)
    | none => .error (.invalid "integer key" name)
  | .count =>
    match Decimal.uint64? name with
    | some c => .ok (.count c)
    | none => .error (.invalid "count key" name)
  | .string => .ok (.string name)
  | .addr =>
    match Address.parse? name with
    | some a => .ok (.addr a)
    | none => .error (.invalid "IP address string" name)
  | .subnet =>
    match Subnet.parse name with
    | .ok s => .ok (.subnet s)
    | .error _ => .error (.invalid "subnet string" name)
  | .port =>
    match Port.parse name with
    | .ok p => .ok (.port p)
    | .error _ => .error (.invalid portForm name)
  | .enum e =>
    match e.index? name with
    | some index => .ok (.enum index)
    | none => .error (.invalid ("variant of enum " ++ e.name) name)

/-- The key that an array index denotes. -/
def AtomType.keyOfIndex (τ : AtomType) (index : Nat) : Except ConversionFault Atom :=
  match τ with
  | .count => .ok (.count (.ofNat index))
  | .int => .ok (.int (.ofNat index))
  | τ => τ.keyOfName (Decimal.ofNat index)

/-- The array index of which a name is the decimal form; the last 32-bit number is none. -/
def arrayIndex? (name : String) : Option Nat :=
  match Decimal.natural? (2 ^ 32 - 1) name with
  | some index => if index ≠ 2 ^ 32 - 1 ∧ Decimal.ofNat index = name then some index else none
  | none => none

/-- A property key as live values take it. -/
inductive PropertyName where
  | symbol (s : Script.Symbol)
  | index (index : Nat)
  | name (name : String)
  deriving DecidableEq

namespace PropertyName

/-- Sorts a key; one that is no text is refused with the UTF-8 position of the fault. -/
def ofKey : Script.Key → Except Nat PropertyName
  | .symbol s => .ok (.symbol s)
  | .string (.illFormed u) => .error u.index
  | .string (.text s) =>
    match arrayIndex? s with
    | some i => .ok (.index i)
    | none => .ok (.name s)

/-- The text of a name. -/
def render : PropertyName → String
  | .symbol _ => ""
  | .index i => Decimal.ofNat i
  | .name n => n

/-- The key that a name denotes. -/
def toAtom (p : PropertyName) (τ : AtomType) : Except ConversionFault Atom :=
  match p with
  | .index i => τ.keyOfIndex i
  | p => τ.keyOfName p.render

end PropertyName

end HostView
