import HostView.Host.Image
import HostView.Script.Mutation

/-!
# Snapshots

A snapshot is a host value as plain data, the way it is written into a document: integers that are
no exact doubles become decimal text, sets become arrays of their members, tables become objects
named by their keys, and what a record shows are the fields that the mask exposes and that are
set.
-/

namespace HostView

/-- Plain data. -/
inductive Plain where
  | null
  | bool (b : Bool)
  | int (i : Int)
  | real (x : Binary64)
  | text (s : String)
  | array (items : List Plain)
  | object (members : List (String × Plain))

namespace Plain

/-- An integer, as text unless it is an exact double. -/
def ofInt (i : Int) : Plain :=
  if i.natAbs ≤ 2 ^ 53 - 1 then .int i else .text (Decimal.ofInt i)

/-- An atom of the given type. -/
def ofAtom (τ : AtomType) : Atom → Plain
  | .bool b => .bool b
  | .int i => ofInt i.toInt
  | .count c => ofInt c.toNat
  | .string s => .text s
  | .port p => .object [("port", .int p.number.toNat), ("proto", .text p.protocol.render)]
  | a => .text (a.render τ)

end Plain

namespace Image

mutual

/-- The snapshot of a value under a mask. -/
def snapshot (mask : Mask) : Image → Plain
  | .atom τ a => .ofAtom τ a
  | .real _ x => .real x
  | .record _ parts => .object (snapshotParts mask parts)
  | .table key none entries => .array (entries.map fun (a, _) => .ofAtom key a)
  | .table key (some _) entries => .object (snapshotEntries mask key entries)
  | .vector _ items => .array (snapshotItems mask items)
  | .invalid => .null

/-- The exposed fields of a record that are set. -/
def snapshotParts (mask : Mask) : List (Part Image) → List (String × Plain)
  | [] => []
  | ⟨_, _, none⟩ :: parts => snapshotParts mask parts
  | ⟨name, attributes, some v⟩ :: parts =>
    if mask.exposes attributes then (name, snapshot mask v) :: snapshotParts mask parts
    else snapshotParts mask parts

/-- The entries of a table, named by the texts of their keys. -/
def snapshotEntries (mask : Mask) (key : AtomType) :
    List (Atom × Option Image) → List (String × Plain)
  | [] => []
  | (_, none) :: entries => snapshotEntries mask key entries
  | (a, some v) :: entries => (a.render key, snapshot mask v) :: snapshotEntries mask key entries

/-- The items of a vector; one that is unset is null. -/
def snapshotItems (mask : Mask) : List (Option Image) → List Plain
  | [] => []
  | none :: items => .null :: snapshotItems mask items
  | some v :: items => snapshot mask v :: snapshotItems mask items

end

end Image

namespace Script

mutual

/-- Plain data as a script value, made of new objects. -/
def build : Plain → Routine Value
  | .null => return .null
  | .bool b => return .bool b
  | .int i => return .ofInt i
  | .real x => return .ofReal x
  | .text s => return .string s
  | .array items => do
    let o ← newArray []
    buildItems o 0 items
    return .object o
  | .object members => do
    let o ← newPlain
    buildMembers o members
    return .object o

/-- Assigns the items of an array from an index on. -/
def buildItems (o : ObjectId) (index : Nat) : List Plain → Routine Unit
  | [] => return ()
  | p :: rest => do
    setProperty o (.item index) (← build p)
    buildItems o (index + 1) rest

/-- Assigns the members of an object one after the other. -/
def buildMembers (o : ObjectId) : List (String × Plain) → Routine Unit
  | [] => return ()
  | (name, p) :: rest => do
    setProperty o (.name name) (← build p)
    buildMembers o rest

end

/-- The snapshot of a host value, as a script value. -/
def snapshotValue (r : Ref) (mask : Mask) : Action Value := do
  build ((Image.of (← get).heap r).snapshot mask)

end Script

end HostView
