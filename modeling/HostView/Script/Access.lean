import HostView.Exposure.Naming
import HostView.Script.Descriptor
import HostView.Script.Routine

/-!
# Reading objects

Properties are looked up on an object, then on its prototypes. A question to a proxy goes to the
method of its handler that is named for the question, and on to the target if there is none. What
such a method answers must fit what the target itself will always answer. The number of steps is
bounded by the number of objects, which no chain without a repetition exceeds; a chain that goes
round is cut by an error.
-/

namespace HostView.Script

/-- The array index that a key is. -/
def Key.index? : Key → Option Nat
  | .string (.text s) => arrayIndex? s
  | _ => none

/-- The unit of a string at a key. -/
def ScriptString.unit? (s : ScriptString) (k : Key) : Option Property :=
  (k.index?.bind (s.units[·]?)).map fun u => .data (.string (.ofUnits [u])) false true false

/-- The unit of a string at a key, or its length. -/
def ScriptString.own? (s : ScriptString) (k : Key) : Option Property :=
  if k = .length then some (.data (.ofInt s.units.length) false false false)
  else ScriptString.unit? s k

namespace Object

/-- The property that an object has by its kind: the length of an array, the units of a string. -/
def inherent? (o : Object) (k : Key) : Option Property :=
  match o.kind with
  | .array length fixed =>
    if k = .length then some (.data (.ofInt length) (!fixed) false false) else none
  | .boxed (.string s) => ScriptString.unit? s k
  | _ => none

/-- The property that an object itself has at a key. -/
def own? (o : Object) (k : Key) : Option Property := (o.inherent? k).or (o.find? k)

/-- The object is a proxy. -/
def isProxy (o : Object) : Bool :=
  match o.kind with
  | .proxy _ _ => true
  | _ => false

end Object

/-- The prototype from which a primitive value takes its properties. -/
def Value.primitiveProto : Value → ObjectId
  | .string _ => Intrinsic.string
  | .bool _ => Intrinsic.boolean
  | .symbol _ => Intrinsic.symbol
  | .bigInt _ => Intrinsic.bigInt
  | .object o => o
  | _ => Intrinsic.number

/-- Makes the object from which the objects inherit that a function constructs, unless that was
done before. -/
def completeObject (o : ObjectId) : Routine Unit := do
  match (← getObject o).kind with
  | .unmade owner =>
    modifyObject o fun object =>
      { object with
        kind := .ordinary
        properties := [(.name "constructor", .hidden (.object owner))] }
  | _ => return ()

/-- The property that an object itself has at a key, as something that a script may use. -/
def findOwn (o : ObjectId) (k : Key) : Routine (Option Property) := do
  let p := (← getObject o).own? k
  match p with
  | some (.data (.object v) _ _ _) => completeObject v
  | _ => pure ()
  return p

/-- What reading a property gives that has a getter. -/
def callGetter (receiver : Value) : Option ObjectId → Routine Value
  | none => return .undefined
  | some getter => callValue (.object getter) receiver []

/-! ### Requests that objects describe -/

/-- A field that must hold a function or nothing. -/
def functionField (read : Routine (Option Value)) (fault : Thrown) : Routine (Option Value) := do
  let field ← tryCatch read fun _ => throw fault
  match field with
  | none | some .undefined => return field
  | some v => if (← get).isFunction v then return field else throw fault

/-- The request that is described by the fields of an object, which are read in a fixed order. -/
def readDescriptor (field : String → Routine (Option Value)) : Routine Descriptor := do
  let enumerable := (← field "enumerable").map Value.truthy
  let configurable := (← field "configurable").map Value.truthy
  let value ← field "value"
  let writable := (← field "writable").map Value.truthy
  let get ← functionField (field "get") .invalidGetter
  let set ← functionField (field "set") .invalidSetter
  if (get.isSome || set.isSome) && (value.isSome || writable.isSome) then throw .mixedDescriptor
  return { value, get, set, writable, enumerable, configurable }

/-! ### Questions to objects -/

mutual

/-- Reads a property of an object on behalf of a receiver. -/
def getFrom : Nat → Value → ObjectId → Key → Routine Value
  | 0, _, _, _ => throw .depth
  | n + 1, receiver, o, k => do
    match (← getObject o).kind with
    | .proxy target handler =>
      match ← getFrom n (.object handler) handler (.name "get") with
      | .undefined | .null => getFrom n receiver target k
      | trap => do
        let v ← callValue trap (.object handler) [.object target, k.value, receiver]
        if (← ownFrom n target k).all (·.canRead v) then return v
        else throw (.inconsistent "get")
    | _ =>
      match ← findOwn o k with
      | some (.data v _ _ _) => return v
      | some (.accessor getter _ _ _) => callGetter receiver getter
      | none =>
        match (← getObject o).proto with
        | some p => getFrom n receiver p k
        | none => return .undefined

/-- The property of an object itself at a key. -/
def ownFrom : Nat → ObjectId → Key → Routine (Option Property)
  | 0, _, _ => throw .depth
  | n + 1, o, k => do
    match (← getObject o).kind with
    | .proxy target handler =>
      match ← getFrom n (.object handler) handler (.name "getOwnPropertyDescriptor") with
      | .undefined | .null => ownFrom n target k
      | trap => do
        match ← callValue trap (.object handler) [.object target, k.value] with
        | .undefined =>
          if (← ownFrom n target k).all (·.canVanish (← getObject target).extensible) then
            return none
          else throw (.inconsistent "getOwnPropertyDescriptor")
        | .object description => do
          let present ← ownFrom n target k
          let extensible ← extensibleFrom n target
          let d ← readDescriptor fun name => do
            if ← hasFrom n description (.name name) then
              return some (← getFrom n (.object description) description (.name name))
            else return none
          if d.canDescribe present extensible then return some (d.applyTo none)
          else throw (.inconsistent "getOwnPropertyDescriptor")
        | _ => throw (.inconsistent "getOwnPropertyDescriptor")
    | _ => findOwn o k

/-- An object or one of its prototypes has a property. -/
def hasFrom : Nat → ObjectId → Key → Routine Bool
  | 0, _, _ => throw .depth
  | n + 1, o, k => do
    let object ← getObject o
    match object.kind with
    | .proxy target handler =>
      match ← getFrom n (.object handler) handler (.name "has") with
      | .undefined | .null => hasFrom n target k
      | trap => do
        if (← callValue trap (.object handler) [.object target, k.value]).truthy then return true
        else if (← ownFrom n target k).all (·.canVanish (← getObject target).extensible) then
          return false
        else throw (.inconsistent "has")
    | _ =>
      if (object.own? k).isSome then return true
      else
        match object.proto with
        | some p => hasFrom n p k
        | none => return false

/-- An object may take new properties. -/
def extensibleFrom : Nat → ObjectId → Routine Bool
  | 0, _ => throw .depth
  | n + 1, o => do
    let object ← getObject o
    match object.kind with
    | .proxy target handler =>
      match ← getFrom n (.object handler) handler (.name "isExtensible") with
      | .undefined | .null => extensibleFrom n target
      | trap => do
        let answer := (← callValue trap (.object handler) [.object target]).truthy
        if answer = (← extensibleFrom n target) then return answer
        else throw (.inconsistent "isExtensible")
    | _ => return object.extensible

end

/-- Reads a property of an object. -/
def getProperty (o : ObjectId) (k : Key) : Routine Value := do
  getFrom (← get).chainLimit (.object o) o k

/-- An object or one of its prototypes has a property. -/
def hasProperty (o : ObjectId) (k : Key) : Routine Bool := do
  hasFrom (← get).chainLimit o k

/-- The property of an object itself at a key. -/
def getOwnProperty (o : ObjectId) (k : Key) : Routine (Option Property) := do
  ownFrom (← get).chainLimit o k

/-- An object may take new properties. -/
def isExtensible (o : ObjectId) : Routine Bool := do
  extensibleFrom (← get).chainLimit o

/-- The method of a handler that answers a question, if it has one. -/
def trapOf (handler : ObjectId) (name : String) : Routine (Option Value) := do
  match ← getProperty handler (.name name) with
  | .undefined | .null => return none
  | trap => return some trap

/-- An object itself has a property. -/
def hasOwnProperty (o : ObjectId) (k : Key) : Routine Bool := do
  let object ← getObject o
  if object.isProxy then return (← getOwnProperty o k).isSome else return (object.own? k).isSome

/-- The prototype of an object. -/
def protoFrom : Nat → ObjectId → Routine (Option ObjectId)
  | 0, _ => throw .depth
  | n + 1, o => do
    let object ← getObject o
    match object.kind with
    | .proxy target handler =>
      match ← trapOf handler "getPrototypeOf" with
      | none => protoFrom n target
      | some trap => do
        let answer ←
          match ← callValue trap (.object handler) [.object target] with
          | .object p => pure (some p)
          | .null => pure none
          | _ => throw (.inconsistent "prototype")
        if ← isExtensible target then return answer
        else if answer = (← protoFrom n target) then return answer
        else throw (.inconsistent "prototype")
    | _ => return object.proto

/-- The prototype of an object. -/
def protoOf (o : ObjectId) : Routine (Option ObjectId) := do
  protoFrom (← get).chainLimit o

/-! ### Reading values -/

/-- Reads a property of any value that has properties. -/
def readFrom (base : Value) (k : Key) : Routine Value := do
  match base with
  | .object o => getProperty o k
  | .undefined => throw (.cannotRead (some k) .undefined)
  | .null => throw (.cannotRead (some k) .null)
  | .string s =>
    match ScriptString.own? s k with
    | some (.data v _ _ _) => return v
    | _ => getFrom (← get).chainLimit base base.primitiveProto k
  | _ => getFrom (← get).chainLimit base base.primitiveProto k

/-- The value of a global that must be there. -/
def globalNamed (name : String) : Routine Value := do
  if ← hasProperty Intrinsic.globals (.name name) then
    getProperty Intrinsic.globals (.name name)
  else throw (.notDefined name)

/-! ### Descriptions of properties -/

/-- The object that describes a property. -/
def describe (p : Property) : Routine Value := do
  let part (f : Option ObjectId) : Value := (f.map Value.object).getD .undefined
  let members : List (String × Value) :=
    match p with
    | .data v writable enumerable configurable =>
      [("value", v), ("writable", .bool writable), ("enumerable", .bool enumerable),
        ("configurable", .bool configurable)]
    | .accessor g s enumerable configurable =>
      [("get", part g), ("set", part s), ("enumerable", .bool enumerable),
        ("configurable", .bool configurable)]
  return .object (← newWith (members.map fun (k, v) => (.name k, .plain v)))

/-- The object that describes a request: it has a field for each thing that is asked for. -/
def describeRequest (d : Descriptor) : Routine Value := do
  let members : List (String × Option Value) :=
    [("get", d.get), ("set", d.set), ("value", d.value), ("writable", d.writable.map Value.bool),
      ("enumerable", d.enumerable.map Value.bool), ("configurable", d.configurable.map Value.bool)]
  return .object (← newWith (members.filterMap fun (k, v) => v.map fun v => (.name k, .plain v)))

/-- A field of a description, if it has one. -/
def fieldOf (o : ObjectId) (name : String) : Routine (Option Value) := do
  if ← hasProperty o (.name name) then return some (← getProperty o (.name name)) else return none

/-- The request that an object describes. -/
def descriptorOf (v : Value) : Routine Descriptor := do
  match v with
  | .object o => readDescriptor (fieldOf o)
  | _ => throw .notDescription

end HostView.Script
