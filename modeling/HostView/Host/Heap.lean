import HostView.Host.Entries
import HostView.Host.Fault
import HostView.Host.Type
import HostView.Number.Binary64

/-!
# The host heap

Host values live in a heap and are held by reference. A cell is a type with the content of a
value. Scalars never change; the slots of records and vectors and the entries of tables refer to
other cells and change in place, so every holder of a reference sees the change. Each operation
checks its arguments first and returns the heap unchanged in all but one cell.
-/

namespace HostView

/-- A reference to a host value. -/
abbrev Ref := Nat

/-- An entry of a table: the value that is its key and, unless the table is a set, its yield. -/
structure Entry where
  key : Ref
  yield : Option Ref
  deriving DecidableEq

/-- The content of a host value. -/
inductive Content where
  | atom (a : Atom)
  | real (kind : RealKind) (x : Binary64)
  | record (slots : List (Option Ref))
  | table (entries : Entries Entry)
  | vector (items : List (Option Ref))
  deriving DecidableEq

/-- The word for the kind of a content. -/
def Content.kind : Content → String
  | .atom a => a.kind
  | .real k _ => k.render
  | .record _ => "record"
  | .table _ => "table"
  | .vector _ => "vector"

/-- A host value: its type and its content. -/
structure Cell where
  type : HostType
  content : Content

instance : Inhabited Cell := ⟨⟨.atom .bool, .atom (.bool false)⟩⟩

/-- All host values. -/
structure Heap where
  cells : Array Cell

namespace Heap

/-- No values. -/
def empty : Heap := ⟨#[]⟩

/-- The value at a reference. -/
def cell (h : Heap) (r : Ref) : Cell := h.cells[r]?.getD default

/-- The type of the value at a reference. -/
def typeOf (h : Heap) (r : Ref) : HostType := (h.cell r).type

/-- The content of the value at a reference. -/
def contentOf (h : Heap) (r : Ref) : Content := (h.cell r).content

/-- A bound on the steps from a value along references. The depth of its type is one where every
reference leads to a value of the declared type; the items of a vector that was made from given
items may be of other types, and then no path without a repetition is longer than the heap. -/
def reach (h : Heap) (r : Ref) : Nat := h.cells.size + (h.typeOf r).depth

/-- A new value. -/
def alloc (h : Heap) (c : Cell) : Ref × Heap :=
  (h.cells.size, ⟨h.cells.push c⟩)

/-- Changes the content of the value at a reference. -/
def update (h : Heap) (r : Ref) (content : Content) : Heap :=
  ⟨h.cells.modify r fun c => { c with content }⟩

/-! ### Building values -/

/-- The content fits the type: the kinds agree, an enumeration has a variant at the index, and a
record has a slot for each field. -/
def checkContent : HostType → Content → Except HostFault Unit
  | .atom (.enum e), .atom (.enum index) =>
    match e.variant? index with
    | some _ => .ok ()
    | none => .error (.unknownVariant e.name (toString index))
  | .record d n fields, .record slots =>
    if slots.length = fields.length then .ok ()
    else .error (.wrongKind (HostType.kind (.record d n fields)) "record")
  | .real k, .real l x =>
    if k = l then .ok () else .error (.wrongKind k.render (Content.kind (.real l x)))
  | .table _ _, .table _ => .ok ()
  | .vector _, .vector _ => .ok ()
  | .atom τ, .atom a => if τ.admits a then .ok () else .error (.wrongKind τ.kind a.kind)
  | τ, c => .error (.wrongKind τ.kind c.kind)

/-- A new value of the given type and content. -/
def new (h : Heap) (type : HostType) (content : Content) : Except HostFault (Ref × Heap) :=
  (checkContent type content).map fun _ => h.alloc ⟨type, content⟩

/-- A new record with no field set. -/
def newRecord (h : Heap) (type : HostType) : Except HostFault (Ref × Heap) :=
  h.new type (.record (List.replicate type.fields.length none))

/-- A new empty table or set. -/
def newTable (h : Heap) (type : HostType) : Except HostFault (Ref × Heap) :=
  h.new type (.table [])

/-- A new empty vector. -/
def newVector (h : Heap) (type : HostType) : Except HostFault (Ref × Heap) :=
  h.new type (.vector [])

/-- A new value of an enumeration, by the name of its variant. -/
def newVariant (h : Heap) (type : HostType) (variant : String) : Except HostFault (Ref × Heap) :=
  match type with
  | .atom (.enum e) =>
    match e.index? variant with
    | some index => h.new type (.atom (.enum index))
    | none => .error (.unknownVariant e.name variant)
  | _ => .error (.wrongKind "enum" type.render)

/-! ### Records -/

/-- The name, fields and slots of a record. -/
def recordParts (h : Heap) (r : Ref) :
    Except HostFault (String × List (Field HostType) × List (Option Ref)) :=
  match h.cell r with
  | ⟨.record _ name fields, .record slots⟩ => .ok (name, fields, slots)
  | c => .error (.wrongKind "record" c.type.render)

/-- The value in a slot of a record. -/
def field (h : Heap) (r : Ref) (offset : Nat) : Except HostFault (Option Ref) := do
  let (name, _, slots) ← h.recordParts r
  match slots[offset]? with
  | some slot => .ok slot
  | none => .error (.badOffset name offset)

/-- Sets a slot of a record to a value of the field's type, or clears it if the field is optional.
-/
def setField (h : Heap) (r : Ref) (offset : Nat) (value : Option Ref) : Except HostFault Heap := do
  let (name, fields, slots) ← h.recordParts r
  match fields[offset]? with
  | none => .error (.badOffset name offset)
  | some f =>
    match value with
    | some v =>
      if (h.typeOf v).same f.type then .ok (h.update r (.record (slots.set offset (some v))))
      else .error (.fieldType name f.name f.type.render (h.typeOf v).render)
    | none =>
      if f.attributes.isOptional then .ok (h.update r (.record (slots.set offset none)))
      else .error (.requiredField name f.name)

/-- The offset of a field by name. -/
def offsetOf (h : Heap) (r : Ref) (name : String) : Except HostFault Nat := do
  let (record, fields, _) ← h.recordParts r
  match fieldOffset? fields name with
  | some offset => .ok offset
  | none => .error (.unknownField record name)

/-- The value of a field by name. -/
def fieldByName (h : Heap) (r : Ref) (name : String) : Except HostFault (Option Ref) := do
  h.field r (← h.offsetOf r name)

/-- Sets or clears a field by name. -/
def setFieldByName (h : Heap) (r : Ref) (name : String) (value : Option Ref) :
    Except HostFault Heap := do
  h.setField r (← h.offsetOf r name) value

/-! ### Tables -/

/-- The key type, yield type and entries of a table. -/
def tableParts (h : Heap) (r : Ref) :
    Except HostFault (AtomType × Option HostType × Entries Entry) :=
  match h.cell r with
  | ⟨.table key yield, .table entries⟩ => .ok (key, yield, entries)
  | c => .error (.wrongKind "table" c.type.render)

/-- The atom that a value is. -/
def atomOf (h : Heap) (r : Ref) : Except HostFault Atom :=
  match h.contentOf r with
  | .atom a => .ok a
  | _ => .error (.invalidKeyType (h.typeOf r).render)

/-- The atom under which a value is looked up in a table with the given type of keys. -/
def keyAtom (h : Heap) (keyType : AtomType) (key : Ref) : Except HostFault Atom :=
  if (h.typeOf key).same (.atom keyType) then h.atomOf key
  else .error (.typeMismatch keyType.render (h.typeOf key).render)

/-- The number of entries. -/
def tableSize (h : Heap) (r : Ref) : Except HostFault Nat := do
  let (_, _, entries) ← h.tableParts r
  .ok entries.length

/-- The entry of a table at an atom. -/
def entryAt? (h : Heap) (r : Ref) (a : Atom) : Option Entry :=
  match h.contentOf r with
  | .table entries => entries.find? a
  | _ => none

/-- A table has an entry at a key. -/
def tableContains (h : Heap) (r key : Ref) : Except HostFault Bool := do
  let (keyType, _, _) ← h.tableParts r
  let a ← h.keyAtom keyType key
  .ok (h.entryAt? r a).isSome

/-- The yield at a key. -/
def tableLookup (h : Heap) (r key : Ref) : Except HostFault (Option Ref) := do
  let (keyType, _, _) ← h.tableParts r
  let a ← h.keyAtom keyType key
  .ok ((h.entryAt? r a).bind (·.yield))

/-- A yield was given exactly if the table has one, and is of its type. -/
def checkYield (h : Heap) : Option HostType → Option Ref → Except HostFault Unit
  | some τ, some v =>
    if (h.typeOf v).same τ then .ok () else .error (.typeMismatch τ.render (h.typeOf v).render)
  | none, none => .ok ()
  | _, _ => .error .yieldMismatch

/-- Puts an entry into a table, or a member into a set. -/
def tableAssign (h : Heap) (r key : Ref) (yield : Option Ref) : Except HostFault Heap := do
  let (keyType, yieldType, entries) ← h.tableParts r
  let a ← h.keyAtom keyType key
  h.checkYield yieldType yield
  .ok (h.update r (.table (entries.insert a ⟨key, yield⟩)))

/-- Takes the entry at an atom out of a table, and tells whether there was one. -/
def tableErase (h : Heap) (r : Ref) (a : Atom) : Except HostFault (Bool × Heap) := do
  let (_, _, entries) ← h.tableParts r
  .ok ((entries.find? a).isSome, h.update r (.table (entries.erase a)))

/-- Takes the entry at a key out of a table, and tells whether there was one. -/
def tableRemove (h : Heap) (r key : Ref) : Except HostFault (Bool × Heap) := do
  let (keyType, _, _) ← h.tableParts r
  h.tableErase r (← h.keyAtom keyType key)

/-- The entries of a table in the order of their keys. -/
def tableEntries (h : Heap) (r : Ref) : Except HostFault (List Entry) := do
  let (_, _, entries) ← h.tableParts r
  .ok (entries.map (·.2))

/-! ### Vectors -/

/-- The items of a vector. -/
def vectorItems (h : Heap) (r : Ref) : Except HostFault (List (Option Ref)) :=
  match h.contentOf r with
  | .vector items => .ok items
  | _ => .error (.wrongKind "vector" (h.typeOf r).render)

/-- Appends an item to a vector. -/
def vectorPush (h : Heap) (r item : Ref) : Except HostFault Heap :=
  match h.cell r with
  | ⟨.vector element, .vector items⟩ =>
    if (h.typeOf item).same element then .ok (h.update r (.vector (items ++ [some item])))
    else .error (.typeMismatch element.render (h.typeOf item).render)
  | c => .error (.wrongKind "vector" c.type.render)

end Heap

end HostView
