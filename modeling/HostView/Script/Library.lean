import HostView.Script.Library.Addresses
import HostView.Script.Library.Dates
import HostView.Script.Library.Documents
import HostView.Script.Library.Iterators
import HostView.Script.Library.Promises
import HostView.Script.Library.Searches

/-!
# The functions of the engine

What the functions do that are there from the start: on the value that they are called on, or to
construct an object, with the arguments that they are given.
-/

namespace HostView.Script

/-- Makes an error of several others, which are the members of the first argument. -/
def constructSeveral (proto : ObjectId) (purpose : Purpose) (arguments : List Value) :
    Routine Value := do
  let proto ← protoFor purpose proto
  let parts ← errorParts (argument arguments 1) (argument arguments 2)
  let errors ← membersIn (argument arguments 0)
  newError proto (parts ++ [(.name "errors", .hidden errors)])

/-- Marks an object with the place of the call, of which nothing is known. -/
def addPlace (v : Value) : Routine Unit := do
  let o ← needObject v
  let _ ← defineProperty o (.name "stack")
    { Descriptor.empty with
      value := some (.string "")
      writable := some true
      enumerable := some false
      configurable := some true }

/-- Makes a proxy, which has to be constructed unless it can be ended. -/
def proxyFor (revocable : Bool) (purpose : Purpose) (arguments : List Value) : Routine Value := do
  if purpose.target?.isNone && !revocable then throw (.needsNew false)
  let target ← needObject (argument arguments 0)
  let proxy ← newProxy target (← needObject (argument arguments 1))
  if revocable then
    let revoke ← newFunction (.builtin .other) false none
    return .object (← newWith [(.name "proxy", .plain (.object proxy)),
      (.name "revoke", .plain (.object revoke))])
  else return .object proxy

/-- Runs a text as a script: a name or a whole number is its own value, and of any other text
nothing is known. What is no text is its own value. -/
def runText (v : Value) : Routine Value := do
  match v with
  | .string (.text s) =>
    let letter (c : Char) : Bool := c.isAlpha || c = '_' || c = '$'
    match s.toList with
    | [] => return .undefined
    | c :: rest =>
      if letter c && rest.all fun c => letter c || c.isDigit then
        match s with
        | "null" => return .null
        | "true" => return .bool true
        | "false" => return .bool false
        | "this" => return .object Intrinsic.globals
        | name => globalNamed name
      else if (c :: rest).all Char.isDigit && (c ≠ '0' || rest.isEmpty) then numberFor v
      else return .undefined
  | .string (.illFormed _) => return .undefined
  | v => return v

/-- Constructs an object of which no more is known than from what it inherits. -/
def constructInstance (itself : Bool) (proto : ObjectId) (purpose : Purpose) : Routine Value := do
  if purpose.target?.isNone then throw (.needsNew itself)
  return .object (← newObject ⟨.ordinary, some (← protoFor purpose proto), true, []⟩)

/-- Calls a function of the engine; `self` is the function itself. -/
def Builtin.perform (b : Builtin) (self : ObjectId) (purpose : Purpose) (arguments : List Value) :
    Routine Value := do
  let this := purpose.this
  let first := argument arguments 0
  match b with
  | .object f => f.perform self purpose arguments
  | .reflect f => f.perform arguments
  | .function f => f.perform this arguments
  | .sequence .ofItems => arrayFrom this arguments
  | .sequence f => f.perform purpose arguments
  | .iterator f => f.perform self purpose arguments
  | .string f => f.perform this arguments
  | .pattern f => f.perform self purpose arguments
  | .number f => f.perform this arguments
  | .bigInt f => f.perform this arguments
  | .symbol f => f.perform this arguments
  | .document f => f.perform arguments
  | .address f => f.perform arguments
  | .date f => f.perform purpose arguments
  | .promise f => f.perform self purpose arguments
  | .errorText => shownError this
  | .primitiveText p => do return .string (← shownText (← unboxed p this))
  | .primitiveValue p => unboxed p this
  | .convert p => makePrimitive p purpose arguments
  | .self => return this
  | .makeFunction => return .object (← newFunction (.scripted []) true (some "anonymous"))
  | .makeError proto false => constructError proto purpose arguments
  | .makeError proto true => constructSeveral proto purpose arguments
  | .markPlace => do
    addPlace first
    return .undefined
  | .makeProxy revocable => proxyFor revocable purpose arguments
  | .construct itself proto => constructInstance itself proto purpose
  | .forbidden => throw .forbiddenAccess
  | .refusing message => throw (.unfit message)
  | .functionOnly index => do
    let _ ← needFunction (argument arguments index)
    return .undefined
  | .group => groupMembers first (argument arguments 1)
  | .ofEntries => objectOfEntries first
  | .never => return .bool false
  | .evaluate => runText first
  | .other => return .undefined

end HostView.Script
