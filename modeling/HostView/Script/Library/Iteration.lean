import HostView.Script.Library.Items

/-!
# Iteration

A value that can be iterated has a method that gives an iterator, and an iterator has a method that
gives its members one after the other. Whoever stops before the last member tells the iterator.
-/

namespace HostView.Script

/-! ### Iterators -/

/-- The iterator that a method of a value gives. -/
def iteratorBy (v method : Value) : Routine ObjectId := do needObject (← callValue method v [])

/-- The iterator over a value. -/
def iteratorOver (v : Value) : Routine ObjectId := do
  let method ← readFrom v (.symbol .iterator)
  if (← get).isFunction method then iteratorBy v method
  else throw (.unfit "value is not iterable")

/-- The method of an iterator that gives its members. -/
def nextOf (iterator : ObjectId) : Routine Value := getProperty iterator (.name "next")

/-- The member that the answer of an iterator tells, none after the last one. -/
def memberIn (answer : Value) : Routine (Option Value) := do
  match answer with
  | .object o => do
    if (← getProperty o (.name "done")).truthy then return none
    else return some (← getProperty o (.name "value"))
  | _ => throw (.unfit "iterator must return an object")

/-- The next member of an iterator, none after the last one. -/
def nextMember (iterator : ObjectId) (next : Value) : Routine (Option Value) := do
  memberIn (← callValue next (.object iterator) [])

/-- The answer of an iterator. -/
def iteratorAnswer (v : Value) (finished : Bool) : Routine Value := do
  return .object (← newWith [(.name "value", .plain v), (.name "done", .plain (.bool finished))])

/-! ### Early ends -/

/-- Tells an iterator that no more members are wanted. -/
def closeIterator (iterator : ObjectId) : Routine Unit := do
  let method ← getProperty iterator (.name "return")
  if method.isPresent then
    let _ ← needObject (← callValue method (.object iterator) [])

/-- Tells an iterator that no more members are wanted, whatever it says to that. -/
def dropIterator (iterator : ObjectId) : Routine Unit := do
  let close : Routine Unit := do
    let method ← getProperty iterator (.name "return")
    if method.isPresent then
      let _ ← callValue method (.object iterator) []
  tryCatch close fun _ => return ()

/-- Does something with a member of an iterator; if that throws, no more members are wanted. -/
def orDrop {α : Type} (iterator : ObjectId) (act : Routine α) : Routine α :=
  tryCatch act fun e => do
    dropIterator iterator
    throw e

/-! ### All members -/

/-- No iterator of the engine has more members. -/
def memberLimit : Nat := 2 ^ 53

/-- Goes through members as long as each step gives a state for the next one; the result is what
the last step gives, or what is made of the state after the last member. -/
def foldMembers {σ ρ : Type} (read : Routine (Option Value)) (step : σ → Value → Routine (Except ρ σ))
    (finish : σ → Routine ρ) : Nat → σ → Routine ρ
  | 0, _ => throw .depth
  | n + 1, state => do
    match ← read with
    | none => finish state
    | some v => do
      match ← step state v with
      | .error result => return result
      | .ok state => foldMembers read step finish n state

/-- Goes through all members of a value. If a step throws, or the iterator, no more members are
wanted. -/
def forEachMember (v : Value) (step : Nat → Value → Routine Unit) : Routine Nat := do
  let iterator ← iteratorOver v
  let next ← nextOf iterator
  foldMembers (orDrop iterator (nextMember iterator next))
    (fun index member => do
      orDrop iterator (step index member)
      return .ok (index + 1))
    (fun count => return count) memberLimit 0

/-- The members of a value in an array. -/
def membersIn (v : Value) : Routine Value := do
  let o ← newArray []
  let _ ← forEachMember v (addItem o)
  return .object o

/-! ### Functions over members -/

/-- An object of pairs of keys and values. -/
def objectOfEntries (entries : Value) : Routine Value := do
  let o ← newPlain
  let _ ← forEachMember entries fun _ entry => do
    let pair ← needObject entry
    let k ← itemOf pair 0
    let v ← itemOf pair 1
    defineMember o (← keyFor k) v
  return .object o

/-- Adds a member to the array at a key, which is made for the first. -/
def addToGroup (groups : ObjectId) (k : Key) (member : Value) : Routine Unit := do
  match ← getProperty groups k with
  | .undefined => defineMember groups k (← newItems [member])
  | group => do
    let o ← toObject group
    setItem o (← lengthOf o) member

/-- An object of arrays of the members of a value, by the keys that a function gives for them. -/
def groupMembers (v f : Value) : Routine Value := do
  let f ← needFunction f
  let groups ← newObject ⟨.ordinary, none, true, []⟩
  let _ ← forEachMember v fun index member => do
    let k ← callValue f (.object Intrinsic.globals) [member, .ofInt index]
    addToGroup groups (← keyFor k) member
  return .object groups

/-- The values that fill a new array: the members of a value that can be iterated, or else the
items of an object. -/
def arrayFrom (constructor : Value) (arguments : List Value) : Routine Value := do
  let source := argument arguments 0
  let f ←
    match argument arguments 1 with
    | .undefined => pure none
    | f => some <$> needFunction f
  let image (index : Nat) (v : Value) : Routine Value :=
    match f with
    | none => return v
    | some f => callValue f (argument arguments 2) [v, .ofInt index]
  match ← readFrom source (.symbol .iterator) with
  | .undefined => do
    let list ← toObject source
    let length ← lengthOf list
    let o ← constructOr constructor [.ofInt length]
    for i in List.range length do
      addItem o i (← image i (← itemOf list i))
    setLength o length
    return .object o
  | _ => do
    let o ← constructOr constructor []
    let count ← forEachMember source fun i v => do addItem o i (← image i v)
    setLength o count
    return .object o

end HostView.Script
