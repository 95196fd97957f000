import HostView.Script.Library.Objects

/-!
# Functions about functions

The methods of functions, construction, and the functions that do to an object what an expression
does and tell whether it was done.
-/

namespace HostView.Script

/-! ### Construction -/

/-- The name that a function has of itself or from its prototype, as long as it is text. -/
def Engine.functionName? (e : Engine) (o : ObjectId) : Option ScriptString :=
  let at? (o : ObjectId) : Option Value := ((e.object o).find? (.name "name")).bind Property.value?
  match (at? o).or ((e.object o).proto.bind at?) with
  | some (.string s) => some s
  | _ => none

/-- Throws because a value cannot construct anything. -/
def refuseToConstruct {α : Type} (v : Value) : Routine α := do
  let engine ← get
  throw (.notConstructor (v.object?.bind fun o =>
    match (engine.object o).kind with
    | .function _ _ => engine.functionName? o
    | _ => none))

/-- Constructs an object, for a target that may be another constructor. -/
def constructFor (f : Value) (target : ObjectId) (arguments : List Value) : Routine Value := do
  match f with
  | .object o =>
    if (← get).isConstructor f then callFor o (.construct target) arguments
    else refuseToConstruct f
  | _ => throw .notFunction

/-- Constructs an object. -/
def constructValue (f : Value) (arguments : List Value) : Routine Value := do
  match f with
  | .object o => constructFor f o arguments
  | _ => throw .notFunction

/-- The constructor that an object names for what its methods make, if it names one. -/
def constructorFor (o : ObjectId) : Routine (Option Value) := do
  match ← getProperty o (.name "constructor") with
  | .undefined => return none
  | constructor => do
    match ← getProperty (← needObject constructor) (.symbol .species) with
    | .undefined | .null => return none
    | v => if (← get).isConstructor v then return some v else refuseToConstruct v

/-! ### Methods of functions -/

/-- The text of a function: its name, or for a function of a script that it is one. -/
def functionText (this : Value) : Routine Value := do
  match this.object?.bind (← get).callable? with
  | none => throw .notFunction
  | some (.scripted _, constructs) =>
    return .string (.text (if constructs then "function () \x7b\x7d" else "() => \x7b\x7d"))
  | some _ => do
    let name ←
      match ← readFrom this (.name "name") with
      | .undefined => pure (.text "")
      | v => textFor v
    return .string ((ScriptString.append "function " name).append
      "() \x7b\n    [native code]\n\x7d")

/-- How many arguments a function still names when some are given. -/
def lengthLeft (o : ObjectId) (given : Nat) : Routine Value := do
  if ← hasOwnProperty o .length then
    match ← getProperty o .length with
    | .int n => return .ofInt (if n.toInt ≤ given then 0 else n.toInt - given)
    | .float x =>
      if x.isNaN then return .int 0
      else if x.isFinite then
        let whole : Int := if x.negative then -x.wholePart else x.wholePart
        return .ofReal (.ofInt (if whole ≤ given then 0 else whole - given))
      else return if x.negative then .int 0 else .float x
    | _ => return .int 0
  else return .int 0

/-- A function that calls another on a fixed value, with fixed arguments first. -/
def bindTo (this : Value) (arguments : List Value) : Routine Value := do
  let _ ← needFunction this
  let o ← needObject this
  let constructs := (← get).isConstructor this
  let proto ← protoOf o
  let length ← lengthLeft o (arguments.length - 1)
  let name ←
    match ← getProperty o (.name "name") with
    | .string s => pure s
    | _ => pure (.text "")
  let first := argument arguments 0
  let bound := Callable.bound o first (arguments.drop 1)
  return .object (← newObject ⟨.function bound constructs, proto, true,
    [(.length, .data length false false true),
      (.name "name", Intrinsic.functionName (ScriptString.append "bound " name))]⟩)

/-- An object inherits from the prototype that a constructor gives; a function that calls another
asks that. -/
def isInstanceFrom (v : Value) : Nat → Value → Routine Bool
  | 0, _ => throw .depth
  | n + 1, f => do
    if !(← get).isFunction f then return false
    match f.object?.map (← get).object with
    | some ⟨.function (.bound g _ _) _, _, _, _⟩ => isInstanceFrom v n (.object g)
    | _ =>
      match v with
      | .object o =>
        match ← readFrom f (.name "prototype") with
        | .object p => isAmongProtos p (← get).chainLimit o
        | _ => throw .noPrototype
      | _ => return false

/-- The values of a list, which must be an object. -/
def listedValues (list : Value) : Routine (List Value) := do
  match list with
  | .object o => do
    let length := (← numberFor (← getProperty o .length)).toWord
    if 65534 < length then
      throw (.undefinedAt "too many arguments in function call (only 65534 allowed)")
    (List.range length).mapM (itemOf o)
  | _ => throw (.unfit "not a object")

/-- Calls a method of functions. -/
def CallFunction.perform (f : CallFunction) (this : Value) (arguments : List Value) :
    Routine Value := do
  let first := argument arguments 0
  match f with
  | .text => functionText this
  | .call => callValue this first (arguments.drop 1)
  | .apply => do
    let f ← needFunction this
    let list := argument arguments 1
    callValue f first (← if list.isPresent then listedValues list else pure [])
  | .bind => bindTo this arguments
  | .hasInstance => return .bool (← isInstanceFrom first (← get).chainLimit this)

/-! ### Reflection -/

/-- Does to an object what a function of reflection is for. -/
def ReflectFunction.on (f : ReflectFunction) (o : ObjectId) (arguments : List Value) :
    Routine Value := do
  let second := argument arguments 1
  match f with
  | .define => do
    let k ← keyFor second
    return .bool (← defineProperty o k (← descriptorOf (argument arguments 2))).isMade
  | .delete => return .bool (← deleteOwn o (← keyFor second)).isMade
  | .read => do
    let receiver := (arguments[2]?).getD (.object o)
    getFrom (← get).chainLimit receiver o (← keyFor second)
  | .describe => describeAt o second
  | .protoOf => protoValue (.object o)
  | .has => do return .bool (← hasProperty o (← keyFor second))
  | .isExtensible => return .bool (← Script.isExtensible o)
  | .keys => do newItems ((← ownKeys o).map Key.value)
  | .close => return .bool (← Script.close o).isMade
  | .write => do
    let k ← keyFor second
    let receiver := (arguments[3]?).getD (.object o)
    return .bool (← setOn receiver o k (argument arguments 2)).isMade
  | .setProto => do
    match second with
    | .object p => return .bool (← replaceProto o (some p)).isMade
    | .null => return .bool (← replaceProto o none).isMade
    | _ => throw .notObject
  | .apply | .construct => return .undefined

/-- Calls a function of reflection. -/
def ReflectFunction.perform (f : ReflectFunction) (arguments : List Value) : Routine Value := do
  let first := argument arguments 0
  let second := argument arguments 1
  match f with
  | .apply => do
    let called ← needFunction first
    callValue called second (← listedValues (argument arguments 2))
  | .construct => do
    let target ←
      match arguments[2]? with
      | some v => do
        if (← get).isConstructor v then needObject v else refuseToConstruct v
      | none => pure (first.object?.getD 0)
    constructFor first target (← listedValues second)
  | f => do f.on (← needObject first) arguments

/-! ### Errors -/

/-- The name and message of an error object. -/
def shownError (this : Value) : Routine Value := do
  let o ← needObject this
  let part (k : String) (absent : ScriptString) : Routine ScriptString := do
    match ← getProperty o (.name k) with
    | .undefined => return absent
    | v => textFor v
  let name ← part "name" "Error"
  let message ← part "message" ""
  if name.units.isEmpty || message.units.isEmpty then return .string (name.append message)
  else return .string ((name.append ": ").append message)

/-- A new error with the given prototype and properties. -/
def newError (proto : ObjectId) (properties : List (Key × Property)) : Routine Value := do
  return .object (← newObject ⟨.error, some proto, true,
    properties ++ [(.name "stack", .hidden (.string ""))]⟩)

/-- The message and the cause that a new error gets, if they are given. -/
def errorParts (message options : Value) : Routine (List (Key × Property)) := do
  let text ←
    match message with
    | .undefined => pure []
    | v => do pure [(Key.name "message", Property.hidden (.string (← textFor v)))]
  let cause ←
    match options with
    | .object o => fieldOf o "cause"
    | _ => pure none
  return text ++ (cause.map fun v => (Key.name "cause", Property.hidden v)).toList

/-- Makes an error. -/
def constructError (proto : ObjectId) (purpose : Purpose) (arguments : List Value) :
    Routine Value := do
  let proto ← protoFor purpose proto
  newError proto (← errorParts (argument arguments 0) (argument arguments 1))

/-- The error that the engine makes of what was thrown, unless that is a value of a script. -/
def Thrown.toValue (e : Thrown) : Routine Value := do
  match e with
  | .value v => return v
  | e =>
    newError ((Intrinsic.errorClass? e.className).getD Intrinsic.error)
      [(.name "message", .hidden (.string e.message))]

end HostView.Script
