import HostView.Exposure.Inbound
import HostView.Exposure.Reading

/-!
# Writing live values

What a live record or table does when a script assigns, defines or deletes one of its properties.
A write converts the value to the type that the field or table declares and then stores it, or
throws and stores nothing. Clearing an optional field and removing an entry are writes of nothing.
No order can close a live value to writes.
-/

namespace HostView.Script

/-- Throws what a live value refuses with. -/
def refuse {α : Type} (cause : Refusal) : Action α :=
  throw (.refused cause)

/-- Changes a host value; a fault of the host is a refusal. -/
def changeHost (change : Heap → Except HostFault Heap) : Action Unit := do
  let m ← get
  match change m.heap with
  | .ok heap => set { m with heap }
  | .error fault => refuse (.host fault)

/-- Converts what is written to a part of a live value; a fault is told as that of the part. -/
def convertFor (path : ConversionFault → ConversionFault) (type : HostType) (v : Value) :
    Action Ref := do
  match ← (toHost type v).run with
  | .ok r => return r
  | .error fault => refuse (.value (path fault))

/-- Converts what is written to a field; nothing is written by `undefined` and `null`. -/
def convertSlot (path : ConversionFault → ConversionFault) (type : HostType) (v : Value) :
    Action (Option Ref) :=
  if v.isPresent then some <$> convertFor path type v else pure none

/-- Writes a field of a record. -/
def writeField (r : Receiver) (name : String) (v : Value) : Action Unit := do
  match ← exposedField r name with
  | none => refuse (.noField ((← get).heap.typeOf r.value).render name)
  | some (offset, field) =>
    let host ← convertSlot (.inField name) field.type v
    changeHost fun h => h.setField r.value offset host

/-- Stores an entry under a new value of the key. -/
def storeEntry (r : Receiver) (key : AtomType) (a : Atom) (yield : Option Ref) : Action Unit :=
  changeHost fun h => do
    let (k, h) ← h.new (.atom key) (.atom a)
    h.tableAssign r.value k yield

/-- Takes an entry away, if there is one. -/
def removeEntry (r : Receiver) (a : Atom) : Action Unit :=
  changeHost fun h => return (← h.tableErase r.value a).2

/-- Writes an entry of a table, or the membership of a set. -/
def writeEntry (r : Receiver) (name : PropertyName) (v : Value) : Action Unit := do
  let m ← get
  match tableAtom m r name with
  | .error fault => refuse (.badKey (m.heap.typeOf r.value).render (.inKey name.render fault))
  | .ok a =>
    match m.heap.typeOf r.value with
    | .table key none =>
      match v with
      | .bool true => storeEntry r key a none
      | .bool false => removeEntry r a
      | _ => refuse (.membership (m.typeName v))
    | .table key (some yield) =>
      if v.isPresent then
        let item ← convertFor (.inKey name.render) yield v
        storeEntry r key a (some item)
      else removeEntry r a
    | _ => refuse .released

/-- Assigns a property of the host value behind `target`. -/
def hostSet (target : ObjectId) (k : Key) (v : Value) : Action Unit := do
  match (← get).receiver? target with
  | none => refuse .released
  | some r =>
    match ← classify k with
    | .symbol _ => refuse .symbolKey
    | name =>
      match r.kind with
      | .record => writeField r name.render v
      | .table => writeEntry r name v
      | .bare => refuse .released

/-- The first flag that a request to define a property switches off. -/
def Descriptor.switchedOff? (d : Descriptor) : Option Flag :=
  if d.configurable = some false then some .configurable
  else if d.writable = some false then some .writable
  else if d.enumerable = some false then some .enumerable
  else none

/-- Defines a property of the host value behind `target`: an assignment, if the request asks for
an ordinary property with a value. -/
def hostDefine (target : ObjectId) (k : Key) (d : Descriptor) : Action Unit :=
  if d.get.isSome || d.set.isSome then refuse .accessor
  else
    match d.switchedOff?, d.value with
    | some flag, _ => refuse (.flag flag)
    | none, none => refuse .valueMissing
    | none, some v => hostSet target k v

/-- Deletes a property of the host value behind `target`: an exposed field is cleared and an entry
is removed. There is nothing to do for any other name. -/
def hostDelete (target : ObjectId) (k : Key) : Action Unit := do
  match (← get).receiver? target with
  | none => refuse .released
  | some r =>
    match ← classify k with
    | .symbol _ => return ()
    | name =>
      match r.kind with
      | .record =>
        match ← exposedField r name.render with
        | some (offset, _) => changeHost fun h => h.setField r.value offset none
        | none => return ()
      | .table =>
        match tableAtom (← get) r name with
        | .ok a => removeEntry r a
        | .error _ => return ()
      | .bare => refuse .released

end HostView.Script
