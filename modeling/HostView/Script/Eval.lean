import HostView.Exposure.Answering
import HostView.Exposure.Snapshot
import HostView.Script.Library

/-!
# Running scripts

The value of an expression and the effect of a statement. Parts are evaluated from left to right,
and a key becomes a property key when the property is reached, in an assignment before the value is
evaluated. An error ends the script at once and leaves what was done before it. A statement has a
value too: that of the last expression it evaluated, which is the result of a script that names no
other. What an expression asks of the engine it asks of the functions that the globals hold, which
scripts may have replaced. Functions may call each other, with a bound on the calls that are open at
one time.
-/

namespace HostView.Script

/-! ### Globals -/

/-- Assigns a global, and gives what was assigned. -/
def setGlobal (name : String) (v : Value) : Routine Value := do
  assignProperty (.object Intrinsic.globals) Intrinsic.globals (.name name) v
  return v

/-- Calls a method of a global. It is looked up before the arguments are evaluated. -/
def callHeld (holder name : String) (arguments : Routine (List Value)) : Routine Value := do
  let base ← globalNamed holder
  let f ← readFrom base (.name name)
  callValue f base (← arguments)

/-- Constructs an object by a global, which is looked up before the arguments are evaluated. -/
def constructBy (name : String) (arguments : Routine (List Value)) : Routine Value := do
  let f ← globalNamed name
  constructValue f (← arguments)

/-! ### Operations -/

/-- A property is looked for on a value and its prototypes. -/
def hasOn (base key : Value) : Routine Value := do
  match base with
  | .object o => return .bool (← hasProperty o (← keyFor key))
  | _ => throw .inOperand

/-- Reads a property by a computed key, which becomes a property key only if the value has
properties. -/
def readComputed (base key : Value) : Routine Value := do
  match base with
  | .undefined => throw (.cannotRead none .undefined)
  | .null => throw (.cannotRead none .null)
  | _ => readFrom base (← keyFor key)

/-- Assigns a property of a value. -/
def assignTo (base : Value) (k : Key) (v : Value) : Routine Value := do
  match base with
  | .undefined => throw (.cannotSet k .undefined)
  | .null => throw (.cannotSet k .null)
  | _ => assignProperty base base.primitiveProto k v
  return v

/-- Deletes a property by a computed key. -/
def deleteComputed (base key : Value) : Routine Value := do
  let k ← keyFor key
  deleteProperty (← toObject base) k
  return .bool true

/-- The word for the kind of a value. -/
def typeWord (v : Value) : Routine Value := do
  let engine ← get
  return .string
    (match v with
    | .undefined => "undefined"
    | .null => "object"
    | .bool _ => "boolean"
    | .int _ | .float _ => "number"
    | .bigInt _ => "bigint"
    | .string _ => "string"
    | .symbol _ => "symbol"
    | .object o => if (engine.callable? o).isSome then "function" else "object")

/-- The name that a function gets from the key of the property that holds it. -/
def Key.functionName : Key → ScriptString
  | .string s => s
  | .symbol s => s.bracketed

/-- Gives a new function the name of the property that holds it. -/
def nameFunction (v : Value) (k : Key) : Routine Unit :=
  v.object?.forM fun o => modifyObject o fun object =>
    object.put (.name "name") (Intrinsic.functionName k.functionName)

/-- A function that throws an error of a class. -/
def newThrower (className message : String) (name : ScriptString) : Routine ObjectId :=
  newFunction (.scripted [.throw className message]) false (some name)

/-- The target and the handler of a proxy of which every read throws. -/
def hostileParts (message : String) : Routine (List Value) := do
  let target ← newPlain
  let f ← newThrower "Error" message "get"
  return [.object target, .object (← newWith [(.name "get", .plain (.object f))])]

/-- An object with a property that throws when it is read. -/
def newGetter (key : Value) (message : String) : Routine Value := do
  let k ← keyFor key
  let f ← newThrower "RangeError" message (ScriptString.append "get " k.functionName)
  return .object (← newWith [(k, .accessor (some f) none true true)])

/-! ### Expressions -/

mutual

/-- The value of an expression. -/
def eval : Expr → Routine Value
  | .undefined => return .undefined
  | .null => return .null
  | .bool b => return .bool b
  | .number x => return .ofLiteral x
  | .text s => return .string s
  | .bigInt i => return .bigInt i
  | .symbol description =>
    if description = "@@iterator" then return .symbol .iterator
    else newSymbol (some (.text description))
  | .array items => do newItems (← evalItems items)
  | .object members => do
    let o ← newPlain
    evalMembers o members
    return .object o
  | .global name => getProperty Intrinsic.globals (.name name)
  | .get target key => do
    let base ← eval target
    readComputed base (← eval key)
  | .has target key => do
    let k ← eval key
    hasOn (← eval target) k
  | .delete target key => do
    let base ← eval target
    deleteComputed base (← eval key)
  | .assign target key value => do
    let base ← eval target
    let k ← keyFor (← eval key)
    assignTo base k (← eval value)
  | .define target key descriptor =>
    callHeld "Reflect" "defineProperty" do
      let base ← eval target
      let k ← eval key
      return [base, k, ← eval descriptor]
  | .ownKeys target => callHeld "Reflect" "ownKeys" do return [← eval target]
  | .names target => callHeld "Object" "keys" do return [← eval target]
  | .descriptor target key =>
    callHeld "Reflect" "getOwnPropertyDescriptor" do
      let base ← eval target
      return [base, ← eval key]
  | .integrity order target => callHeld "Object" order.name do return [← eval target]
  | .toJson target => do callMethod (← eval target) "toJSON" []
  | .typeOf target => do typeWord (← eval target)
  | .identical a b => do
    let x ← eval a
    return .bool (x.identical (← eval b))
  | .derive proto => callHeld "Object" "create" do return [← eval proto]
  | .spread source => do spreadOf (← eval source)
  | .layer target =>
    constructBy "Proxy" do
      let v ← eval target
      return [v, .object (← newPlain)]
  | .hostile message => constructBy "Proxy" (hostileParts message)
  | .getter key message => do newGetter (← eval key) message
  | .function constructs => do return .object (← newFunction (.scripted []) constructs (some ""))
  | .error message => constructBy "Error" (return [.string (.text message)])

/-- The values of expressions. -/
def evalItems : List Expr → Routine (List Value)
  | [] => return []
  | e :: rest => do
    let v ← eval e
    return v :: (← evalItems rest)

/-- Defines the members of a new object one after the other. -/
def evalMembers (o : ObjectId) : List (Expr × Expr) → Routine Unit
  | [] => return ()
  | (key, value) :: rest => do
    let k ← eval key
    let v ← eval value
    let k ← keyFor k
    if value.isFunction then nameFunction v k
    defineMember o k v
    evalMembers o rest

end

/-! ### Statements -/

/-- What a caught value is called: its name and its message with a colon between them. -/
def caughtText (v : Value) : Routine Value := do
  let part (name : String) : Routine ScriptString := do
    primitiveText (← primitiveFor .any (← readFrom v (.name name)))
  let opening := (← part "name").append ": "
  return .string (opening.append (← part "message"))

/-- Runs a body for each member of a value, and gives what the last run gave. -/
def forEachIn (v : Value) (body : Value → Routine Value) : Routine Value := do
  let iterator ← iteratorOver v
  let next ← nextOf iterator
  foldMembers (nextMember iterator next)
    (fun _ member => do return .ok (← orDrop iterator (body member)))
    (fun last => return last) memberLimit Value.undefined

mutual

/-- Runs a statement and gives its value. -/
def exec : Stmt → Routine Value
  | .eval e => eval e
  | .assign name e => do setGlobal name (← eval e)
  | .throw className message => do
    throw (.value (← constructBy className (return [.string (.text message)])))
  | .log items => callHeld "console" "log" (evalItems items)
  | .function name body => do
    setGlobal name (.object (← newFunction (.scripted body) true (some "")))
  | .attempt body name =>
    tryCatch (execAll body .undefined) fun e => do
      setGlobal name (← caughtText (← e.toValue))
  | .each target name body => do
    let names ← callHeld "Object" "keys" do return [← eval target]
    forEachIn names fun s => do execAll body (← setGlobal name s)

/-- Runs statements one after the other and gives the value of the last; `last` is the value
before them. -/
def execAll : List Stmt → Value → Routine Value
  | [], last => return last
  | s :: rest, _ => do execAll rest (← exec s)

end

/-! ### Calls -/

/-- Writes a line to the console: the texts of the values with blanks between them. -/
def writeLine (items : List Value) : Routine Unit := do
  let texts ← items.mapM wellFormedText
  modify fun e => { e with console := " ".intercalate texts :: e.console }

/-- Calls the function that a script wrote. One that constructs gives the new object. -/
def callScripted (body : List Stmt) (purpose : Purpose) : Routine Value := do
  let result ←
    match purpose with
    | .call _ => pure .undefined
    | .construct _ => do
      let proto ← protoFor purpose Intrinsic.object
      pure (.object (← newObject ⟨.ordinary, some proto, true, []⟩))
  let _ ← execAll body .undefined
  return result

/-- What a function of fixed arguments, `self`, calls another function for. -/
def Purpose.passedOn (self function : ObjectId) (this : Value) : Purpose → Purpose
  | .call _ => .call this
  | .construct target => .construct (if target = self then function else target)

/-- Calls a function; `self` is the function itself. -/
def Callable.perform (f : Callable) (self : ObjectId) (purpose : Purpose)
    (arguments : List Value) : Action Value := do
  match f with
  | .scripted body => callScripted body purpose
  | .trap t => t.perform arguments
  | .snapshot number =>
    match (← get).snapshots[number]? with
    | some (r, mask) => snapshotValue r mask
    | none => return .undefined
  | .console => do
    writeLine arguments
    return .undefined
  | .bound function this given =>
    callFor function (purpose.passedOn self function this) (given ++ arguments)
  | .builtin b => b.perform self purpose arguments

/-- Calls a proxy: its handler may answer in the place of the target. -/
def callProxy (target handler : ObjectId) (purpose : Purpose) (arguments : List Value) :
    Routine Value := do
  let trap ← trapOf handler (if purpose.target?.isSome then "construct" else "apply")
  match purpose with
  | .call this => do
    let _ ← needFunction (.object target)
    match trap with
    | none => callFor target purpose arguments
    | some trap => callValue trap (.object handler) [.object target, this, ← newItems arguments]
  | .construct heir => do
    if !(← get).isConstructor (.object target) then refuseToConstruct (.object target)
    match trap with
    | none => callFor target purpose arguments
    | some trap => do
      let made ← callValue trap (.object handler)
        [.object target, ← newItems arguments, .object heir]
      return .object (← needObject made)

/-- Calls an object. -/
def performCall (o : ObjectId) (purpose : Purpose) (arguments : List Value) : Action Value := do
  match (← getObject o).kind with
  | .function f _ => f.perform o purpose arguments
  | .proxy target handler => callProxy target handler purpose arguments
  | _ => throw .notFunction

/-- Calls an object, with a bound on the calls that are open at one time. -/
def invoke : Nat → Caller
  | 0, _, _, _ => throw .depth
  | n + 1, o, purpose, arguments =>
    ExceptT.mk ((performCall o purpose arguments).run.run (invoke n))

/-- How many calls may be open at one time. -/
def callLimit : Nat := 1000

/-- Runs a script and gives the value of its expression, or else of its last statement. -/
def Program.run (p : Program) : Routine Value := do
  let last ← execAll p.body .undefined
  match p.result with
  | some e => eval e
  | none => return last

end HostView.Script
