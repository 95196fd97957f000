import HostView.Exposure.Writing

/-!
# How live values answer

The methods of the handler behind which live records and tables stand. Each takes the object of a
wrap, and most a key, and answers as a script value; lists and descriptions are built by
assignment.
-/

namespace HostView.Script

/-- The key that a value is; anything that is no text counts as a symbol. -/
def Value.key : Value → Key
  | .string s => .string s
  | .symbol s => .symbol s
  | _ => .symbol (.own 0 none)

/-- An array of names. -/
def listOfNames (names : List String) : Routine Value := do
  let o ← newArray []
  names.zipIdx.forM fun (name, index) => setProperty o (.item index) (.string name)
  return .object o

/-- The object that describes an ordinary property. -/
def describePlain (v : Value) : Routine Value := do
  let o ← newPlain
  setProperty o (.name "value") v
  for flag in ["writable", "enumerable", "configurable"] do
    setProperty o (.name flag) (.bool true)
  return .object o

/-- A flag of a description counts as a truth value only. -/
def flagOf (description : ObjectId) (flag : Flag) : Routine (Option Bool) := do
  return (← getProperty description (.name flag.render)).bool?

/-- As much of a description as decides what becomes of the request: the first part that is
refused ends the reading. -/
def readRequest (description : ObjectId) : Routine Descriptor := do
  let accessor ←
    if ← hasProperty description (.name "get") then pure true
    else hasProperty description (.name "set")
  if accessor then return { Descriptor.empty with get := some .undefined }
  let d := { Descriptor.empty with configurable := ← flagOf description .configurable }
  if d.switchedOff?.isSome then return d
  let d := { d with writable := ← flagOf description .writable }
  if d.switchedOff?.isSome then return d
  let d := { d with enumerable := ← flagOf description .enumerable }
  if d.switchedOff?.isSome then return d
  return { d with value := ← fieldOf description "value" }

/-- Answers a question about a live value, or changes it. -/
def Trap.perform (t : Trap) (arguments : List Value) : Action Value := do
  let target ← needObject (argument arguments 0)
  let k := (argument arguments 1).key
  match t with
  | .get => do
    match ← hostGet target k with
    | .value v => return v
    | .inherited => getProperty target k
  | .set => do
    hostSet target k (argument arguments 2)
    return .bool true
  | .has => return .bool (← hostHas target k)
  | .delete => do
    hostDelete target k
    return .bool true
  | .list => do listOfNames (← hostKeys target)
  | .describe => do
    match (← hostProperty target k).bind Property.value? with
    | some v => describePlain v
    | none => return .undefined
  | .define => do
    let description ← needObject (argument arguments 2)
    hostDefine target k (← readRequest description)
    return .bool true
  | .close => refuse .closed

end HostView.Script
