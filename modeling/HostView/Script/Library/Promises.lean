import HostView.Script.Library.Iteration

/-!
# Functions about promises

How promises are made, and which functions of a script that calls. Whatever waits for a promise
runs after the script and stays unseen.
-/

namespace HostView.Script

/-! ### Making promises -/

/-- A new function that keeps or breaks a promise. -/
def newSettler (f : PromiseFunction) : Routine Value := do
  return .object (← newObject ⟨.function (.builtin (.promise f)) false, some Intrinsic.function,
    true, Intrinsic.functionProperties 1 (some "")⟩)

/-- Makes a promise, and hands the functions that keep and break it to another function. -/
def makePromise (proto : ObjectId) (purpose : Purpose) (executor : Value) : Routine Value := do
  if purpose.target?.isNone then throw (.needsNew false)
  let _ ← needFunction executor
  let promise ← newObject ⟨.promise, some (← protoFor purpose proto), true, []⟩
  let keep ← newSettler .keep
  let fail ← newSettler .fail
  let _ ← tryCatch (callValue executor .undefined [keep, fail]) fun _ => return .undefined
  return .object promise

/-- A promise with the functions that keep and break it. -/
structure Capability where
  promise : Value
  keep : Value
  fail : Value

/-- A promise as a constructor makes it. The functions that the constructor hands over are found as
the items of the function that takes them. -/
def promiseBy (constructor : Value) : Routine Capability := do
  let taker ← needObject (← newSettler .take)
  let promise ← constructValue constructor [.object taker]
  let taken (i : Nat) : Routine Value := do needFunction (← getProperty taker (.item i))
  let keep ← taken 0
  return ⟨promise, keep, ← taken 1⟩

/-- The constructor of promises. -/
def promiseConstructor : Value := Intrinsic.held Intrinsic.globals "Promise" Intrinsic.all

/-! ### Promises of something -/

/-- Calls a function that keeps or breaks a promise, which is the result. -/
def Capability.settle (c : Capability) (settler v : Value) : Routine Value := do
  let _ ← callValue settler .undefined [v]
  return c.promise

/-- Does something, and breaks a promise if that throws. -/
def Capability.orFail (c : Capability) (act : Routine Value) : Routine Value :=
  tryCatch act fun e => do c.settle c.fail (← e.toValue)

/-- A promise of the members of a value, each of which becomes a promise to follow. -/
def gatherMembers (constructor members : Value) : Routine Value := do
  let c ← promiseBy constructor
  c.orFail do
    let resolve ← needFunction (← readFrom constructor (.name "resolve"))
    let _ ← forEachMember members fun _ v => do
      let p ← callValue resolve constructor [v]
      let _ ← callValue (← readFrom p (.name "then")) p [c.keep, c.fail]
    return c.promise

/-- What follows on a promise, as a promise. -/
def promiseAfter (this : Value) : Routine Value := do
  let o ← needObject this
  match ((← get).object o).kind with
  | .promise => do
    let constructor ← constructorFor o
    return (← promiseBy (constructor.getD promiseConstructor)).promise
  | _ => throw (.unfit "Promise object expected")

/-- Lets functions follow on a promise by its own method. -/
def invokeThen (this : Value) (arguments : List Value) : Routine Value := do
  callValue (← readFrom this (.name "then")) this arguments

/-- A promise that an object has already, if it is one of the constructor. -/
def ownPromise? (constructor v : Value) : Routine (Option Value) := do
  match v with
  | .object o => do
    match ((← get).object o).kind with
    | .promise =>
      return if (← getProperty o (.name "constructor")) = constructor then some v else none
    | _ => return none
  | _ => return none

/-- Calls a function about promises. -/
def PromiseFunction.perform (f : PromiseFunction) (self : ObjectId) (purpose : Purpose)
    (arguments : List Value) : Routine Value := do
  let this := purpose.this
  let first := argument arguments 0
  match f with
  | .make proto => makePromise proto purpose first
  | .take => do
    modifyObject self fun object =>
      (object.put (.item 0) (.plain first)).put (.item 1) (.plain (argument arguments 1))
    return .undefined
  | .keep => do
    match first with
    | .object o =>
      let _ ← tryCatch (getProperty o (.name "then")) fun _ => return .undefined
      return .undefined
    | _ => return .undefined
  | .fail => return .undefined
  | .kept => do
    let _ ← needObject this
    match ← ownPromise? this first with
    | some v => return v
    | none => do
      let c ← promiseBy this
      c.settle c.keep first
  | .broken => do
    let _ ← needObject this
    let c ← promiseBy this
    c.settle c.fail first
  | .attempt => do
    let _ ← needObject this
    let c ← promiseBy this
    c.orFail do c.settle c.keep (← callValue first .undefined (arguments.drop 1))
  | .gather => do
    let _ ← needObject this
    gatherMembers this first
  | .parts => do
    let _ ← needObject this
    let c ← promiseBy this
    return .object (← newWith [(.name "promise", .plain c.promise),
      (.name "resolve", .plain c.keep), (.name "reject", .plain c.fail)])
  | .followUp => promiseAfter this
  | .onFailure => invokeThen this [.undefined, first]
  | .onEnd => do
    let _ ← constructorFor (← needObject this)
    if (← get).isFunction first then
      invokeThen this [← newSettler .later, ← newSettler .later]
    else invokeThen this [first, first]
  | .later => do return (← promiseBy promiseConstructor).promise

end HostView.Script
