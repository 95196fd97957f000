import HostView.Script.Library.Functions

/-!
# The items of objects

Any object with a length has items: the properties named by the numbers below the length. An item
may be missing; where items are moved, a missing one stays missing. New arrays are made by the
constructor that the object names on which a method was called.
-/

namespace HostView.Script

/-! ### One item -/

/-- The item of an object at an index, unless it is missing. -/
def item? (o : ObjectId) (index : Nat) : Routine (Option Value) := do
  if ← hasProperty o (.item index) then return some (← itemOf o index) else return none

/-- Assigns an item. -/
def setItem (o : ObjectId) (index : Nat) (v : Value) : Routine Unit := setProperty o (.item index) v

/-- Defines an item. -/
def addItem (o : ObjectId) (index : Nat) (v : Value) : Routine Unit := defineMember o (.item index) v

/-- Assigns the length of an object. -/
def setLength (o : ObjectId) (length : Nat) : Routine Unit :=
  setProperty o .length (.ofInt length)

/-- Assigns an item, or deletes it. -/
def putItem (o : ObjectId) (index : Nat) : Option Value → Routine Unit
  | some v => setItem o index v
  | none => deleteProperty o (.item index)

/-! ### Several items -/

/-- Assigns items from an index on. -/
def setItems (o : ObjectId) (start : Nat) (items : List Value) : Routine Unit :=
  (items.zipIdx start).forM fun (v, i) => setItem o i v

/-- Moves items one after the other, from the last on if so wanted. -/
def moveItems (o : ObjectId) (source target count : Nat) (backward : Bool) : Routine Unit := do
  let order := List.range count
  for i in if backward then order.reverse else order do
    putItem o (target + i) (← item? o (source + i))

/-- The items from one index to before another, a missing one being undefined. -/
def itemsBetween (o : ObjectId) (start finish : Nat) : Routine (List Value) :=
  (List.range (finish - start)).mapM fun i => itemOf o (start + i)

/-- All items of an object, a missing one being undefined. -/
def allItems (o : ObjectId) : Routine (List Value) := do itemsBetween o 0 (← lengthOf o)

/-- Defines copies of the items of an object that are not missing, from an index on. -/
def addCopies (target first : Nat) (source start count : Nat) : Routine Unit :=
  (List.range count).forM fun i => do
    match ← item? source (start + i) with
    | some v => addItem target (first + i) v
    | none => return ()

/-! ### Places -/

/-- The place that an argument names: one below zero is counted from the end. -/
def placeIn (length : Nat) (v : Value) : Routine Int := do
  let i ← integerFor v
  return if i < 0 then i + length else i

/-- The place that an argument names, inside the bounds; `absent` stands for no argument. -/
def boundIn (length absent : Nat) : Value → Routine Nat
  | .undefined => return absent
  | v => do return min (← placeIn length v).toNat length

/-! ### New arrays -/

/-- A new array of a length, if that is the only thing given, or else with the given items. -/
def makeArray (purpose : Purpose) (arguments : List Value) : Routine Value := do
  let proto ← protoFor purpose Intrinsic.array
  let o ← newObject ⟨.array 0 false, some proto, true, []⟩
  let ofLength (v : Value) : Routine Unit := do setLength o (← arrayLength v)
  match arguments with
  | [.int n] => ofLength (.int n)
  | [.float x] => ofLength (.float x)
  | items => setItems o 0 items
  return .object o

/-- A new array of a length. -/
def emptyArray (length : Nat) : Routine Value := makeArray (.call .undefined) [.ofInt length]

/-- The array that a method makes for the items it selects from an object: by the constructor that
the object names, if it is an array, or that constructor gives for its methods. -/
def arrayFor (o : ObjectId) (length : Nat) : Routine ObjectId := do
  let constructor ←
    if (← get).isArray o then getProperty o (.name "constructor") else pure .undefined
  let constructor ←
    match constructor with
    | .object c => do
      match ← getProperty c (.symbol .species) with
      | .null => pure .undefined
      | v => pure v
    | v => pure v
  match constructor with
  | .undefined => needObject (← emptyArray length)
  | v => needObject (← constructValue v [.ofInt length])

/-- The object that a constructor makes, or an array if the value is none. -/
def constructOr (constructor : Value) (arguments : List Value) : Routine ObjectId := do
  if (← get).isConstructor constructor then needObject (← constructValue constructor arguments)
  else needObject (← makeArray (.call .undefined) arguments)

end HostView.Script
