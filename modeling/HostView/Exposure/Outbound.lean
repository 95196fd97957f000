import HostView.Script.Mutation

/-!
# Host values as script values

How a host value appears to a script. Scalars are copied: integers exactly, counts always as big
integers, addresses, subnets and variants as text, ports as objects. Records and tables are not
copied but wrapped, so that the script sees the value itself; the wrap carries the mask under
which it was exposed. Vectors are copied, and their items wrapped, at once. What is built is
built by assignment, so scripts may have a hand in it through setters of prototypes.
-/

namespace HostView.Script

/-- Integers of at most this magnitude are exact doubles. -/
def safeLimit : Nat := 2 ^ 53 - 1

/-- An integer, as a number if it is an exact double and as a big integer otherwise. -/
def Value.ofHostInt (i : Int) : Value :=
  if i.natAbs ≤ safeLimit then .ofInt i else .bigInt i

/-- A count is handed out as a big integer. -/
def countValue (c : UInt64) : Action Value :=
  modifyGet fun m =>
    let (i, integers) := m.integers.get c
    (.bigInt i.value, { m with integers })

/-- A port appears as an object with its number and its protocol. -/
def portValue (p : Port) : Routine Value := do
  let o ← newPlain
  setProperty o (.name "port") (.ofInt p.number.toNat)
  setProperty o (.name "proto") (.string p.protocol.render)
  return .object o

/-- An atom of the given type. -/
def atomValue (τ : AtomType) : Atom → Action Value
  | .bool b => return .bool b
  | .int i => return .ofHostInt i.toInt
  | .count c => countValue c
  | .string s => return .string s
  | .port p => portValue p
  | a => return .string (a.render τ)

/-- Wraps a host value, and attaches the wrap to a new object. The object of a record or table is
a proxy that lets the value answer; that of any other value is bare. -/
def wrapObject (mask : Mask) (r : Ref) : Action Value := do
  let kind := WrapKind.of ((← get).heap.typeOf r)
  let w ← modifyGet fun m =>
    let (w, wraps) := m.wraps.construct r mask kind
    (w, { m with wraps })
  let target ← newObject ⟨.wrap w, some Intrinsic.wrap, true, []⟩
  modify fun m => { m with wraps := m.wraps.attach w }
  match kind with
  | .bare => return .object target
  | _ => return .object (← newProxy target Intrinsic.bridge)

/-- A host value as a script value, with the items of vectors followed so many steps. -/
def wrapWithin (mask : Mask) : Nat → Ref → Action Value
  | 0, _ => return .undefined
  | n + 1, r => do
    match (← get).heap.cell r with
    | ⟨.atom τ, .atom a⟩ => atomValue τ a
    | ⟨.real _, .real _ x⟩ => return .ofReal x
    | ⟨.vector _, .vector items⟩ =>
      let o ← newArray []
      items.zipIdx.forM fun (item, index) => do
        let v ←
          match item with
          | some v => wrapWithin mask n v
          | none => pure .undefined
        setProperty o (.item index) v
      return .object o
    | _ => wrapObject mask r

/-- A host value as a script value. -/
def wrapValue (mask : Mask) (r : Ref) : Action Value := do
  wrapWithin mask ((← get).heap.reach r) r

end HostView.Script
