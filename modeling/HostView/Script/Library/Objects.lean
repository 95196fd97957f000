import HostView.Script.Mutation

/-!
# Functions about objects

The methods that objects inherit, and the functions that ask or change something about an object as
a whole.
-/

namespace HostView.Script

/-- The value that an operation needs to be a function. -/
def needFunction (v : Value) : Routine Value := do
  if (← get).isFunction v then return v else throw .notFunction

/-- A value as an object. -/
def toObject : Value → Routine ObjectId
  | .object o => return o
  | .undefined | .null => throw .noObject
  | v => newBox v v.primitiveProto

/-- A new array, as a value. -/
def newItems (items : List Value) : Routine Value := do
  return .object (← newArray items)

/-- A value that may be missing. -/
def optional (v : Option Value) : Value := v.getD .undefined

/-! ### Classes and prototypes -/

/-- The word for the class of an object, as far as it does not name the class itself. -/
def Engine.classWord (e : Engine) (o : ObjectId) : String :=
  if e.isArray o then "Array"
  else if (e.callable? o).isSome then "Function"
  else
    match (e.object o).kind with
    | .error => "Error"
    | .boxed (.string _) => "String"
    | .boxed (.bool _) => "Boolean"
    | .boxed (.int _) | .boxed (.float _) => "Number"
    | _ => "Object"

/-- The text that names the class of a value, unless the value names it itself. -/
def classText : Value → Routine ScriptString
  | .undefined => return "[object Undefined]"
  | .null => return "[object Null]"
  | v => do
    let o ← toObject v
    let word := ScriptString.text ((← get).classWord o)
    let named ←
      match ← getProperty o (.symbol .toStringTag) with
      | .string s => pure s
      | _ => pure word
    return (ScriptString.append "[object " named).append "]"

/-- Calls the method of the given name. -/
def callMethod (base : Value) (name : String) (arguments : List Value) : Routine Value := do
  callValue (← readFrom base (.name name)) base arguments

/-- The prototype of a value, as a value. -/
def protoValue : Value → Routine Value
  | .object o => do return ((← protoOf o).map Value.object).getD .null
  | v => return .object v.primitiveProto

/-- An object is among the prototypes of another. -/
def isAmongProtos (target : ObjectId) : Nat → ObjectId → Routine Bool
  | 0, _ => throw .depth
  | n + 1, o => do
    match ← protoOf o with
    | some p => if p = target then return true else isAmongProtos target n p
    | none => return false

/-- The getter or setter of the first property of the given key among an object and its
prototypes. -/
def accessorOf (setter : Bool) (k : Key) : Nat → ObjectId → Routine Value
  | 0, _ => throw .depth
  | n + 1, o => do
    match ← getOwnProperty o k with
    | some (.accessor get set _ _) => return optional ((if setter then set else get).map .object)
    | some (.data ..) => return .undefined
    | none =>
      match ← protoOf o with
      | some p => accessorOf setter k n p
      | none => return .undefined

/-- Adds a getter or setter to an object. -/
def installAccessor (setter : Bool) (this key function : Value) : Routine Value := do
  let o ← toObject this
  let _ ← needFunction function
  let d : Descriptor :=
    { Descriptor.empty with
      get := if setter then none else some function
      set := if setter then some function else none
      enumerable := some true
      configurable := some true }
  (← defineProperty o (← keyFor key) d).orThrow
  return .undefined

/-- Replaces the prototype of a value by another object or by none. -/
def setProto (this : Value) (proto : Option ObjectId) : Routine Unit := do
  match this with
  | .undefined | .null => throw .notObject
  | .object o => (← replaceProto o proto).orThrow
  | _ => return ()

/-- An empty object that inherits from a value. -/
def deriveFrom (proto : Value) : Routine ObjectId := do
  match proto with
  | .object p => newObject ⟨.ordinary, some p, true, []⟩
  | .null => newObject ⟨.ordinary, none, true, []⟩
  | _ => throw .notPrototype

/-- The prototype that a new object gets: the one that the target of its construction names, or
else the given one. -/
def protoFor (purpose : Purpose) (default : ObjectId) : Routine ObjectId := do
  match purpose.target? with
  | none => return default
  | some target =>
    match ← getProperty target (.name "prototype") with
    | .object p => return p
    | _ => return default

/-! ### Properties -/

/-- The names of the enumerable properties of a value. -/
def namesOf (v : Value) : Routine (List ScriptString) := do
  enumerableNames (← toObject v)

/-- The description of a property by a computed key, undefined if there is none. -/
def describeAt (o : ObjectId) (key : Value) : Routine Value := do
  match ← getOwnProperty o (← keyFor key) with
  | some p => describe p
  | none => return .undefined

/-- An object with the descriptions of all properties of an object. -/
def describeEach (o : ObjectId) : Routine Value := do
  let described ← newPlain
  for k in ← ownKeys o do
    match ← getOwnProperty o k with
    | some p => defineMember described k (← describe p)
    | none => pure ()
  return .object described

/-- The keys of the enumerable properties of an object, as they are settled when the keys are
listed. -/
def enumerableKeys (o : ObjectId) : Routine (List Key) := do
  let object ← getObject o
  let keys ← ownKeys o
  if object.isProxy then
    keys.filterM fun k => do
      return ((← getOwnProperty o k).map Property.enumerable).getD false
  else return keys.filter fun k => ((object.own? k).map Property.enumerable).getD false

/-- Defines the properties of an object that the enumerable properties of another describe. -/
def defineEach (o source : ObjectId) : Routine Unit := do
  for k in ← enumerableKeys source do
    let d ← descriptorOf (← getProperty source k)
    (← defineProperty o k d).orThrow

/-- The enumerable properties of an object at the given names, each turned into a value when its
turn comes. -/
def memberValues (o : ObjectId) (make : ScriptString → Value → Routine Value) :
    List ScriptString → Routine (List Value)
  | [] => return []
  | s :: rest => do
    if ((← getOwnProperty o (.string s)).map Property.enumerable).getD false then
      let v ← make s (← getProperty o (.string s))
      return v :: (← memberValues o make rest)
    else memberValues o make rest

/-- An array made of the enumerable properties of a value. -/
def membersOf (v : Value) (make : ScriptString → Value → Routine Value) : Routine Value := do
  let o ← toObject v
  newItems (← memberValues o make ((← ownKeys o).filterMap Key.string?))

/-- Copies the members of an object at the given keys; with `listed` false a key counts only if
its property is found enumerable when its turn comes. -/
def copyMembers (source : ObjectId) (store : Key → Value → Routine Unit) (listed : Bool) :
    List Key → Routine Unit
  | [] => return ()
  | k :: rest => do
    let isMember ←
      if listed then pure true
      else do pure (((← getOwnProperty source k).map Property.enumerable).getD false)
    if isMember then store k (← getProperty source k)
    copyMembers source store listed rest

/-- Copies the enumerable members of an object. Which members an object has is settled when they
are listed; those of a proxy are looked up one by one. -/
def copyFrom (source : ObjectId) (store : Key → Value → Routine Unit) : Routine Unit := do
  if (← getObject source).isProxy then copyMembers source store false (← ownKeys source)
  else copyMembers source store true (← enumerableKeys source)

/-- A plain object with the enumerable members of a value. -/
def spreadOf (v : Value) : Routine Value := do
  let target ← newPlain
  match v with
  | .object source => copyFrom source (defineMember target)
  | _ => pure ()
  return .object target

/-- Assigns the enumerable members of values to an object. -/
def assignEach (o : ObjectId) (sources : List Value) : Routine Unit :=
  sources.forM fun v => do
    if v.isPresent then copyFrom (← toObject v) (setProperty o)

/-- The value as an object, or a new object: a constructor that is not the target of the
construction only makes what inherits from that. -/
def makeObject (self : ObjectId) (purpose : Purpose) (v : Value) : Routine Value := do
  if purpose.target?.all (· = self) then
    if v.isPresent then return .object (← toObject v) else return .object (← newPlain)
  else
    return .object (← newObject ⟨.ordinary, some (← protoFor purpose Intrinsic.object), true, []⟩)

/-- Calls a function about objects. -/
def ObjectFunction.perform (f : ObjectFunction) (self : ObjectId) (purpose : Purpose)
    (arguments : List Value) : Routine Value := do
  let this := purpose.this
  let first := argument arguments 0
  let second := argument arguments 1
  match f with
  | .text => return .string (← classText this)
  | .localText => callMethod this "toString" []
  | .self => return .object (← toObject this)
  | .hasOwn => do
    let k ← keyFor first
    return .bool (← hasOwnProperty (← toObject this) k)
  | .isPrototypeOf =>
    match first with
    | .object v => do
      let o ← toObject this
      return .bool (← isAmongProtos o (← get).chainLimit v)
    | _ => return .bool false
  | .isEnumerable => do
    let o ← toObject this
    return .bool (((← getOwnProperty o (← keyFor first)).map Property.enumerable).getD false)
  | .addAccessor setter => installAccessor setter this first second
  | .findAccessor setter => do
    let o ← toObject this
    accessorOf setter (← keyFor first) (← get).chainLimit o
  | .readProto => do protoValue (.object (← toObject this))
  | .replaceProto => do
    match first with
    | .object p => setProto this (some p)
    | .null => setProto this none
    | _ => if !this.isPresent then throw .notObject
    return .undefined
  | .make => makeObject self purpose first
  | .assign => do
    let o ← toObject first
    assignEach o (arguments.drop 1)
    return .object o
  | .integrity order => carryOut order first
  | .protoOf => if first.isPresent then protoValue first else throw .notObject
  | .withProto => do
    if !first.isPresent then throw .notObject
    match second with
    | .object p => setProto first (some p)
    | .null => setProto first none
    | _ => throw .notObject
    return first
  | .derive => do
    let o ← deriveFrom first
    if second ≠ .undefined then defineEach o (← toObject second)
    return .object o
  | .define => do
    let o ← needObject first
    let k ← keyFor second
    (← defineProperty o k (← descriptorOf (argument arguments 2))).orThrow
    return first
  | .defineAll => do
    let o ← needObject first
    defineEach o (← toObject second)
    return first
  | .describe => do describeAt (← toObject first) second
  | .describeAll => do describeEach (← toObject first)
  | .same => return .bool (first.same second)
  | .hasOwnNamed => do
    let o ← toObject first
    return .bool (← hasOwnProperty o (← keyFor second))
  | .ownNames => do
    newItems ((← ownKeys (← toObject first)).filterMap fun k => k.string?.map Value.string)
  | .ownSymbols => do
    newItems (((← ownKeys (← toObject first)).filter Key.isSymbol).map Key.value)
  | .names => do newItems ((← namesOf first).map Value.string)
  | .values => membersOf first fun _ v => return v
  | .entries => membersOf first fun name v => newItems [.string name, v]

end HostView.Script
