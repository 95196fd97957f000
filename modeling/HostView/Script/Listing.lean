import HostView.Script.Coercion

/-!
# The keys of objects

An object lists its keys: array indices ascending, then other names and then symbols, each as they
were made. A proxy lists what the method of its handler for that gives, which must name every
property that its target cannot lose, and no other if the target takes no new ones.
-/

namespace HostView.Script

/-- The keys of an object that is no proxy, in the order in which they are listed. -/
def Object.keys (o : Object) : List Key :=
  let stored := o.properties.map (·.1)
  let (units, length) :=
    match o.kind with
    | .array _ _ => ([], [Key.length])
    | .boxed (.string s) => ((List.range s.units.length).map Key.item, [])
    | _ => ([], [])
  let indices := stored.filterMap fun k => k.index?.map fun i => (i, k)
  let names := stored.filter fun k => k.index?.isNone && !k.isSymbol
  units ++ (indices.mergeSort fun a b => a.1 ≤ b.1).map (·.2) ++ length ++ names ++
    stored.filter Key.isSymbol

/-- The keys that a list holds from an index on. -/
def keysAt (list : Value) (index : Nat) : Nat → Routine (List Key)
  | 0 => return []
  | n + 1 => do
    let k ←
      match ← readFrom list (.item index) with
      | .string s => pure (Key.string s)
      | .symbol s => pure (Key.symbol s)
      | _ => throw .noKey
    return k :: (← keysAt list (index + 1) n)

/-- The keys among those of a target that it must show, because it cannot lose them. -/
def lastingKeys (target : ObjectId) (extensible : Bool) (keys : List Key) : Routine (List Key) :=
  keys.filterM fun k => do
    return !((← getOwnProperty target k).all (·.canVanish extensible))

/-- The keys that a proxy may list, given the keys of its target. -/
def checkKeys (target : ObjectId) (extensible : Bool) (keys own : List Key) : Routine Unit := do
  let lasting ← lastingKeys target extensible own
  if !lasting.all keys.contains then throw .missingKey
  else if !extensible && !keys.all lasting.contains then throw .foreignKey
  else return ()

/-- All keys of an object. -/
def keysFrom : Nat → ObjectId → Routine (List Key)
  | 0, _ => throw .depth
  | n + 1, o => do
    let object ← getObject o
    match object.kind with
    | .proxy target handler =>
      match ← trapOf handler "ownKeys" with
      | none => keysFrom n target
      | some trap => do
        let list ← callValue trap (.object handler) [.object target]
        let length := (← numberFor (← readFrom list .length)).toWord
        let keys ← keysAt list 0 length
        if !keys.Nodup then throw .duplicateKey
        let extensible ← isExtensible target
        checkKeys target extensible keys (← keysFrom n target)
        return keys
    | _ => return object.keys

/-- All keys of an object. -/
def ownKeys (o : ObjectId) : Routine (List Key) := do
  keysFrom (← get).chainLimit o

/-- The names of the enumerable properties of an object: all keys are listed first, then the
property at each name is asked for. -/
def enumerableNames (o : ObjectId) : Routine (List ScriptString) := do
  let names := (← ownKeys o).filterMap Key.string?
  names.filterM fun s => do
    return ((← getOwnProperty o (.string s)).map Property.enumerable).getD false

end HostView.Script
