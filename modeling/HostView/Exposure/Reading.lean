import HostView.Exposure.Naming
import HostView.Exposure.Outbound
import HostView.Exposure.Receiver

/-!
# Reading live values

What a live record or table answers when a script reads it. A record answers for the fields that
its mask exposes, a table for the names that denote keys. Every other name is left to the
prototype of the wrap, except that `toJSON` is a function that takes a snapshot. Nested records
and tables are wrapped again on each read, under the mask of the value they were read from.
-/

namespace HostView.Script

/-- The offset of a field of a type, from the cache. -/
def cachedOffset (type : HostType) (name : String) : Action (Option Nat) :=
  modifyGet fun m =>
    let (offset, offsets) := m.offsets.lookup nameHash type name
    (offset, { m with offsets })

/-- A field that the record declares and the mask exposes, with its offset. -/
def exposedField (r : Receiver) (name : String) : Action (Option (Nat × Field HostType)) := do
  let type := (← get).heap.typeOf r.value
  let found ← cachedOffset type name
  return do
    let offset ← found
    let field ← type.fields[offset]?
    if r.mask.exposes field.attributes then some (offset, field) else none

/-- The value of a field, under the mask of its record; undefined if it is unset. -/
def fieldValue (r : Receiver) (offset : Nat) : Action Value := do
  match (← get).heap.field r.value offset with
  | .ok (some v) => wrapValue r.mask v
  | _ => return .undefined

/-- The function that takes a snapshot. -/
def snapshotFunction (r : Receiver) : Action Value := do
  let number ← modifyGet fun m : Machine =>
    (m.snapshots.size, { m with snapshots := m.snapshots.push (r.value, r.mask) })
  return .object (← newFunction (.snapshot number) false none)

/-- The key that a name denotes in the table. -/
def tableAtom (m : Machine) (r : Receiver) (name : PropertyName) : Except ConversionFault Atom :=
  match m.heap.typeOf r.value with
  | .table key _ => name.toAtom key
  | τ => .error (.mismatch "table" τ.render)

/-- What a table shows for an entry: its yield, or that the member is present. -/
def entryValue (r : Receiver) (e : Entry) : Action Value :=
  match e.yield with
  | some v => wrapValue r.mask v
  | none => return .bool true

/-- The answer of a live value to a read. -/
inductive Found where
  | value (v : Value)
  /-- The read goes on along the prototypes of the wrap. -/
  | inherited

/-- A name that the live value itself does not answer. -/
def unanswered (r : Receiver) (name : String) (other : Found) : Action Found := do
  if name = "toJSON" then return .value (← snapshotFunction r) else return other

/-- Sorts a property key for a live value. -/
def classify (k : Key) : Routine PropertyName :=
  match PropertyName.ofKey k with
  | .ok name => return name
  | .error index => throw (.illFormedKey index)

/-- Reads a property of a record. -/
def readField (r : Receiver) (name : String) : Action Found := do
  match ← exposedField r name with
  | some (offset, _) => return .value (← fieldValue r offset)
  | none => unanswered r name .inherited

/-- Reads a property of a table. -/
def readEntry (r : Receiver) (name : PropertyName) : Action Found := do
  match tableAtom (← get) r name with
  | .error _ => unanswered r name.render .inherited
  | .ok a =>
    match (← get).heap.entryAt? r.value a with
    | some e => return .value (← entryValue r e)
    | none => unanswered r name.render (.value .undefined)

/-- Reads a property of the host value behind `target`. -/
def hostGet (target : ObjectId) (k : Key) : Action Found := do
  match (← get).receiver? target with
  | none => return .value .undefined
  | some r =>
    match ← classify k with
    | .symbol .tag => return .value (.object target)
    | .symbol _ => return .inherited
    | name =>
      match r.kind with
      | .record => readField r name.render
      | .table => readEntry r name
      | .bare => return .value .undefined

/-- The host value behind `target` has a property: a field that is set, or an entry. -/
def hostHas (target : ObjectId) (k : Key) : Action Bool := do
  match (← get).receiver? target with
  | none => return false
  | some r =>
    match ← classify k with
    | .symbol _ => return false
    | name =>
      match r.kind with
      | .record =>
        match ← exposedField r name.render with
        | none => return false
        | some (offset, _) =>
          match (← get).heap.field r.value offset with
          | .ok (some _) => return true
          | _ => return false
      | .table =>
        match tableAtom (← get) r name with
        | .error _ => return false
        | .ok a => return ((← get).heap.entryAt? r.value a).isSome
      | .bare => return false

/-- The names that a host value shows: the exposed fields in the order of their declaration,
whether set or not, or the texts of the keys in their order. -/
def shownNames (h : Heap) (r : Receiver) : List String :=
  match r.kind with
  | .record => ((h.typeOf r.value).fields.filter fun f => r.mask.exposes f.attributes).map (·.name)
  | .table =>
    match h.cell r.value with
    | ⟨.table key _, .table entries⟩ => entries.map fun (a, _) => a.render key
    | _ => []
  | .bare => []

/-- The names that the host value behind `target` shows. -/
def hostKeys (target : ObjectId) : Action (List String) := do
  let m ← get
  return ((m.receiver? target).map (shownNames m.heap)).getD []

/-- The property of the host value behind `target` at a key. A field has one even if it is unset.
-/
def hostProperty (target : ObjectId) (k : Key) : Action (Option Property) := do
  match (← get).receiver? target with
  | none => return none
  | some r =>
    match ← classify k with
    | .symbol _ => return none
    | name =>
      match r.kind with
      | .record =>
        match ← exposedField r name.render with
        | none => return none
        | some (offset, _) => return some (.plain (← fieldValue r offset))
      | .table =>
        match tableAtom (← get) r name with
        | .error _ => return none
        | .ok a =>
          match (← get).heap.entryAt? r.value a with
          | some e => return some (.plain (← entryValue r e))
          | none => return none
      | .bare => return none

end HostView.Script
