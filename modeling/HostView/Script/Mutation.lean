import HostView.Script.Listing

/-!
# Changing objects

Assignment looks for the property on the object and its prototypes, where a setter or a proxy may
take it and a property that is read-only refuses it, and then defines it on the object that was
assigned to. Definition and deletion concern an object itself. A proxy passes a change to the
method of its handler that is named for it, or on to its target. A change is made or declined, so
that a caller may throw the cause or go on.
-/

namespace HostView.Script

/-! ### Definition -/

/-- How a change was answered. -/
inductive Outcome where
  | made
  | declined (cause : Thrown)

namespace Outcome

/-- The change was made. -/
def isMade : Outcome → Bool
  | .made => true
  | .declined _ => false

/-- Throws unless the change was made. -/
def orThrow : Outcome → Routine Unit
  | .made => return ()
  | .declined cause => throw cause

end Outcome

/-- The whole number that a number or a big integer is. -/
def Value.integer? : Value → Option Int
  | .bigInt i => some i
  | v => v.number?.bind Binary64.toInt?

/-- The length that a number, a truth value or null is, if it is one. -/
def Value.arrayLength? (v : Value) : Option Nat :=
  match v with
  | .null => some 0
  | .bool b => some b.toNat
  | v => v.integer?.bind fun i => if 0 ≤ i ∧ i < 2 ^ 32 then some i.toNat else none

/-- The length that a value stands for. A string or an object is converted twice, and must give
the same number both times. -/
def arrayLength (v : Value) : Routine Nat := do
  let length ←
    match v with
    | .null | .bool _ | .int _ | .float _ | .bigInt _ => pure v.arrayLength?
    | v => do
      let word := (← numberFor v).toWord
      pure ((← numberFor v).arrayLength?.filter (· = word))
  match length with
  | some n => return n
  | none => throw .arrayLength

/-- The last element of an array from `length` on that may not be deleted. -/
def Object.stuck? (o : Object) (length : Nat) : Option Nat :=
  (o.properties.filterMap fun (k, p) =>
    k.index?.filter fun i => length ≤ i && !p.configurable).max?

/-- Cuts an array, or makes it longer. Elements are deleted from the end, as far as they may be. -/
def resize (o : ObjectId) (length : Nat) : Routine Outcome := do
  let object ← getObject o
  let newLength := ((object.stuck? length).map (· + 1)).getD length
  modifyObject o fun object =>
    { object with
      kind :=
        match object.kind with
        | .array _ fixed => .array newLength fixed
        | kind => kind
      properties := object.properties.filter fun e => e.1.index?.all (· < newLength) }
  return if newLength = length then .made else .declined .cannotCut

/-- Fixes the length of an array. -/
def fixLength (o : ObjectId) : Routine Unit :=
  modifyObject o fun object =>
    match object.kind with
    | .array length _ => { object with kind := .array length true }
    | _ => object

/-- Defines the length of an array. -/
def defineLength (o : ObjectId) (d : Descriptor) : Routine Outcome := do
  let requested ← d.value.mapM arrayLength
  let object ← getObject o
  match object.kind, object.inherent? .length with
  | .array length fixed, some p =>
    if !p.allows { d with value := requested.map fun n => .ofInt n } then
      return .declined .notConfigurable
    else
      let outcome ←
        match requested with
        | some n => if fixed && n = length then pure .made else resize o n
        | none => pure .made
      if d.writable = some false then fixLength o
      return outcome
  | _, _ => return .declined .notConfigurable

/-- Adds a property to an object. An array grows to hold a new element. -/
def addProperty (o : ObjectId) (k : Key) (d : Descriptor) : Routine Outcome := do
  let object ← getObject o
  let add : Routine Outcome :=
    if object.extensible then do
      modifyObject o fun object => object.put k (d.applyTo none)
      return .made
    else return .declined .notExtensible
  match object.kind, k.index? with
  | .array length fixed, some i =>
    if i < length then add
    else if fixed then return .declined (.readOnly .length)
    else do
      modifyObject o fun object => { object with kind := .array (i + 1) fixed }
      add
  | _, _ => add

/-- Defines a property of an ordinary object. What the object has by its kind stays as it is. -/
def defineOrdinary (o : ObjectId) (k : Key) (d : Descriptor) : Routine Outcome := do
  let _ ← findOwn o k
  let object ← getObject o
  match object.inherent? k, object.find? k with
  | some p, _ => return if p.allows d then .made else .declined .notConfigurable
  | none, some p =>
    if p.allows d then
      modifyObject o fun object => object.put k (d.applyTo (some p))
      return .made
    else return .declined .notConfigurable
  | none, none => addProperty o k d

/-- What a target has after its proxy has taken a request for a definition must be what the request
may have left behind. -/
def checkDefined (target : ObjectId) (k : Key) (d : Descriptor) : Routine Unit := do
  let fits ←
    match ← getOwnProperty target k with
    | some p => pure (p.canFollow d)
    | none => do pure ((← getObject target).extensible && d.configurable != some false)
  if fits then return () else throw (.inconsistent "defineProperty")

/-- Defines a property of an object. -/
def defineFrom : Nat → ObjectId → Key → Descriptor → Routine Outcome
  | 0, _, _, _ => throw .depth
  | n + 1, o, k, d => do
    match (← getObject o).kind with
    | .proxy target handler =>
      match ← trapOf handler "defineProperty" with
      | none => defineFrom n target k d
      | some trap => do
        let request ← describeRequest d
        let answer ← callValue trap (.object handler) [.object target, k.value, request]
        if answer.truthy then
          checkDefined target k d
          return .made
        else return .declined .definitionDeclined
    | .array _ _ => if k = .length then defineLength o d else defineOrdinary o k d
    | _ => defineOrdinary o k d

/-- Defines a property of an object. -/
def defineProperty (o : ObjectId) (k : Key) (d : Descriptor) : Routine Outcome := do
  defineFrom (← get).chainLimit o k d

/-- Defines an ordinary property of an object, which must not refuse it. -/
def defineMember (o : ObjectId) (k : Key) (v : Value) : Routine Unit := do
  (← defineProperty o k (.ordinary v)).orThrow

/-! ### Prototypes -/

/-- One of the prototypes of `o` is `target`, or `o` itself is. -/
def Engine.inherits (e : Engine) (target : ObjectId) : Nat → ObjectId → Bool
  | 0, _ => false
  | n + 1, o =>
    o = target ||
      match (e.object o).kind, (e.object o).proto with
      | .proxy _ _, _ => false
      | _, some p => e.inherits target n p
      | _, none => false

/-- Replaces the prototype of an object. -/
def replaceProtoFrom (proto : Option ObjectId) : Nat → ObjectId → Routine Outcome
  | 0, _ => throw .depth
  | n + 1, o => do
    let engine ← get
    match (engine.object o).kind with
    | .proxy target handler =>
      match ← trapOf handler "setPrototypeOf" with
      | none => replaceProtoFrom proto n target
      | some trap => do
        let p := (proto.map Value.object).getD .null
        if !(← callValue trap (.object handler) [.object target, p]).truthy then
          return .declined .protoDeclined
        else if ← isExtensible target then return .made
        else if (← protoOf target) = proto then return .made
        else throw (.inconsistent "prototype")
    | _ =>
      if (engine.object o).proto = proto then return .made
      else if o = Intrinsic.object then return .declined .immutableProto
      else if !(engine.object o).extensible then return .declined .notExtensible
      else if proto.any (engine.inherits o engine.chainLimit) then return .declined .circularProto
      else
        modifyObject o fun object => { object with proto }
        return .made

/-- Replaces the prototype of an object. -/
def replaceProto (o : ObjectId) (proto : Option ObjectId) : Routine Outcome := do
  replaceProtoFrom proto (← get).chainLimit o

/-! ### Assignment -/

/-- Assigns to a property that has a setter. -/
def callSetter (receiver : Value) (setter : Option ObjectId) (v : Value) : Routine Outcome := do
  match setter with
  | none => return .declined .noSetter
  | some setter => do
    let _ ← callValue (.object setter) receiver [v]
    return .made

/-- Ends an assignment on the object that was assigned to. -/
def assignOn (receiver : Value) (k : Key) (v : Value) : Routine Outcome := do
  match receiver with
  | .object o =>
    let object ← getObject o
    if !object.isProxy && !object.extensible then return .declined .notExtensible
    else
      match ← getOwnProperty o k with
      | some (.data _ true _ _) => do
        let _ ← defineProperty o k { Descriptor.empty with value := some v }
        return .made
      | some (.data _ false _ _) => return .declined (.readOnly k)
      | some (.accessor ..) => return .declined .setterForbidden
      | none => defineProperty o k (.ordinary v)
  | _ => return .declined .notObject

/-- Assigns the length of an array. -/
def assignLength (o : ObjectId) (v : Value) : Routine Outcome := do
  let length ← arrayLength v
  match (← getObject o).inherent? .length with
  | some (.data _ true _ _) => resize o length
  | _ => return .declined (.readOnly .length)

/-- Assigns a property that the object itself has. -/
def assignOwn (o : ObjectId) (k : Key) (p : Property) (v : Value) : Routine Outcome := do
  if k = .length && (← get).isArray o then assignLength o v
  else
    match p with
    | .data _ false _ _ => return .declined (.readOnly k)
    | .data _ true e c => do
      modifyObject o fun object => object.put k (.data v true e c)
      return .made
    | .accessor _ setter _ _ => callSetter (.object o) setter v

/-- An array has an element at the key. -/
def Object.isElement (o : Object) (k : Key) : Bool :=
  match o.kind with
  | .array _ _ => k.index?.isSome
  | _ => false

/-- Assigns a property that is looked for on `o` and its prototypes. One that could be written ends
the search only as an element of an array; the others give way to what stands behind them. -/
def setFrom (receiver : Value) : Nat → ObjectId → Key → Value → Routine Outcome
  | 0, _, _, _ => throw .depth
  | n + 1, o, k, v => do
    let object ← getObject o
    let onward : Routine Outcome :=
      match object.proto with
      | some p => setFrom receiver n p k v
      | none => assignOn receiver k v
    match object.kind with
    | .proxy target handler =>
      match ← trapOf handler "set" with
      | none => setFrom receiver n target k v
      | some trap => do
        let answer ← callValue trap (.object handler) [.object target, k.value, v, receiver]
        if !answer.truthy then return .declined .assignmentDeclined
        else if (← getOwnProperty target k).all (·.canWrite v) then return .made
        else throw (.inconsistent "set")
    | _ =>
      match ← findOwn o k with
      | none => onward
      | some p =>
        if receiver = .object o then assignOwn o k p v
        else
          match p with
          | .data _ false _ _ => return .declined (.readOnly k)
          | .data _ true _ _ => if object.isElement k then assignOn receiver k v else onward
          | .accessor _ setter _ _ => callSetter receiver setter v

/-- Assigns a property of an object on behalf of a receiver. -/
def setOn (receiver : Value) (o : ObjectId) (k : Key) (v : Value) : Routine Outcome := do
  setFrom receiver (← get).chainLimit o k v

/-- Assigns a property of an object, which must not refuse it. -/
def setProperty (o : ObjectId) (k : Key) (v : Value) : Routine Unit := do
  (← setOn (.object o) o k v).orThrow

/-- Assigns a property as a script does: if a proxy declines the definition at the end, nothing
comes of it. -/
def assignProperty (receiver : Value) (o : ObjectId) (k : Key) (v : Value) : Routine Unit := do
  match ← setOn receiver o k v with
  | .declined .definitionDeclined => return ()
  | outcome => outcome.orThrow

/-! ### Deletion and integrity -/

/-- Deletes a property of an object itself. -/
def deleteFrom : Nat → ObjectId → Key → Routine Outcome
  | 0, _, _ => throw .depth
  | n + 1, o, k => do
    let object ← getObject o
    match object.kind with
    | .proxy target handler =>
      match ← trapOf handler "deleteProperty" with
      | none => deleteFrom n target k
      | some trap => do
        if !(← callValue trap (.object handler) [.object target, k.value]).truthy then
          return .declined .cannotDelete
        else
          match ← getOwnProperty target k with
          | none => return .made
          | some p =>
            if p.canVanish (← isExtensible target) then return .made
            else throw (.inconsistent "deleteProperty")
    | _ =>
      match object.own? k with
      | none => return .made
      | some p =>
        if p.configurable then
          modifyObject o fun object => object.drop k
          return .made
        else return .declined .cannotDelete

/-- Deletes a property of an object itself, and tells whether that was done. -/
def deleteOwn (o : ObjectId) (k : Key) : Routine Outcome := do
  deleteFrom (← get).chainLimit o k

/-- Deletes a property of an object itself, which must not refuse it. -/
def deleteProperty (o : ObjectId) (k : Key) : Routine Unit := do
  (← deleteOwn o k).orThrow

/-- Closes an object to new properties. -/
def closeFrom : Nat → ObjectId → Routine Outcome
  | 0, _ => throw .depth
  | n + 1, o => do
    match (← getObject o).kind with
    | .proxy target handler =>
      match ← trapOf handler "preventExtensions" with
      | none => closeFrom n target
      | some trap => do
        if !(← callValue trap (.object handler) [.object target]).truthy then
          return .declined .closedRefused
        else if ← isExtensible target then throw (.inconsistent "preventExtensions")
        else return .made
    | _ => do
      modifyObject o fun object => { object with extensible := false }
      return .made

/-- Closes an object to new properties, and tells whether that was done. -/
def close (o : ObjectId) : Routine Outcome := do
  closeFrom (← get).chainLimit o

/-- The request that seals or freezes a property. -/
def fastening (freeze : Bool) (p : Option Property) : Descriptor :=
  let writable :=
    match freeze, p with
    | true, some (.data _ true _ _) => some false
    | _, _ => none
  { Descriptor.empty with writable, configurable := some false }

/-- Closes an object and seals or freezes each of its properties. -/
def fasten (freeze : Bool) (o : ObjectId) : Routine Unit := do
  (← close o).orThrow
  for k in ← ownKeys o do
    let p ← if freeze then getOwnProperty o k else pure none
    (← defineProperty o k (fastening freeze p)).orThrow

/-- A property that seals or freezes would change. -/
def Property.isLoose (frozen : Bool) : Property → Bool
  | .data _ writable _ configurable => configurable || frozen && writable
  | .accessor _ _ _ configurable => configurable

/-- None of the properties at the given keys is loose; the first that is ends the test. -/
def allFast (frozen : Bool) (o : ObjectId) : List Key → Routine Bool
  | [] => return true
  | k :: rest => do
    if ((← getOwnProperty o k).map (·.isLoose frozen)).getD false then return false
    else allFast frozen o rest

/-- An object is sealed or frozen. -/
def isFast (frozen : Bool) (o : ObjectId) : Routine Bool := do
  if ← allFast frozen o (← ownKeys o) then return !(← isExtensible o) else return false

/-- Carries out an order about an object. Orders leave other values as they are, and questions
take them for closed. -/
def carryOut (order : Integrity) (v : Value) : Routine Value := do
  match order, v with
  | .freeze, .object o => fasten true o; return v
  | .seal, .object o => fasten false o; return v
  | .preventExtensions, .object o => (← close o).orThrow; return v
  | .isExtensible, .object o => return .bool (← isExtensible o)
  | .isFrozen, .object o => return .bool (← isFast true o)
  | .isSealed, .object o => return .bool (← isFast false o)
  | .isExtensible, _ => return .bool false
  | .isFrozen, _ | .isSealed, _ => return .bool true
  | _, _ => return v

end HostView.Script
