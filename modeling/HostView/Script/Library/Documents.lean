import HostView.Script.Content.Reader
import HostView.Script.Result

/-!
# Functions about documents

A value is written as the text of a document, and the text of a document is read as a value. A
function may have a say in what is written or read.
-/

namespace HostView.Script

/-! ### Reading -/

mutual

/-- The value of a content. -/
def valueOf : Content → Routine Value
  | .null => return .null
  | .bool b => return .bool b
  | .number x => return .float x
  | .string s => return .string s
  | .array items => do newItems (← valuesOf items)
  | .object members => do
    let o ← newPlain
    membersFrom o members
    return .object o

/-- The values of contents. -/
def valuesOf : List Content → Routine (List Value)
  | [] => return []
  | c :: rest => do
    let v ← valueOf c
    return v :: (← valuesOf rest)

/-- Defines members of an object. -/
def membersFrom (o : ObjectId) : List (ScriptString × Content) → Routine Unit
  | [] => return ()
  | (name, c) :: rest => do
    defineMember o (.string name) (← valueOf c)
    membersFrom o rest

end

/-- The keys of the parts of an object that a function may revise. -/
def revisedKeys (o : ObjectId) : Routine (List Key) := do
  if (← get).isArray o then
    let length := (← numberFor (← getProperty o .length)).toWord
    return (List.range length).map Key.item
  else return (← enumerableNames o).map Key.string

/-- What a function makes of a part of an object, whose own parts it has revised before. The bound
is on nesting. -/
def revise (f : Value) : Nat → ObjectId → Key → Routine Value
  | 0, _, _ => throw .depth
  | n + 1, holder, k => do
    let v ← getProperty holder k
    match v with
    | .object o =>
      for part in ← revisedKeys o do
        match ← revise f n o part with
        | .undefined => do
          let _ ← deleteOwn o part
        | revised => do
          let _ ← defineProperty o part (.ordinary revised)
    | _ => pure ()
    callValue f (.object holder) [k.value, v]

/-- The value that a text writes, revised by a function if there is one. -/
def parseText (text f : Value) : Routine Value := do
  match Content.ofText (← textFor text) with
  | .error message => throw (.malformed message)
  | .ok content => do
    let v ← valueOf content
    if (← get).isFunction f then
      let root ← newWith [(.name "", .plain v)]
      revise f (← documentLimit) root (.name "")
    else return v

/-! ### Writing -/

/-- The name that an item of a list of names is, if it is one. -/
def listedName? (v : Value) : Routine (Option ScriptString) := do
  let engine ← get
  match v with
  | .string s => return some s
  | .int _ | .float _ => return some (← textFor v)
  | .object o =>
    match (engine.object o).kind with
    | .boxed (.string _) | .boxed (.int _) | .boxed (.float _) => return some (← textFor v)
    | _ => return none
  | _ => return none

/-- An array of the names in a list, each once. -/
def listedNames (list : ObjectId) : Routine ObjectId := do
  let names ← newArray []
  for i in List.range (← lengthOf list) do
    match ← listedName? (← itemOf list i) with
    | none => pure ()
    | some name => do
      let places := List.range (← lengthOf names)
      if !(← hasItem names (.string name) places) then
        let _ ← pushItems names [.string name]
  return names

/-- The blanks by which each level is indented: so many, or a text of its own. -/
def gapFor (v : Value) : Routine (List UInt16) := do
  let engine ← get
  let v ←
    match v.object?.map fun o => (engine.object o).kind with
    | some (.boxed (.int _)) | some (.boxed (.float _)) => numberFor v
    | some (.boxed (.string _)) => do pure (.string (← textFor v))
    | _ => pure v
  match v with
  | .string s => return s.units.take 10
  | v => return List.replicate (min v.toInteger.toNat 10) 0x20

/-- The text of a value as a document. -/
def writeText (v replacer space : Value) : Routine Value := do
  let engine ← get
  let f := if engine.isFunction replacer then some replacer else none
  let names ←
    match replacer with
    | .object o => if f.isNone && engine.isArray o then some <$> listedNames o else pure none
    | _ => pure none
  let gap ← gapFor space
  match ← report v f names with
  | some content => return .string (.ofUnits (content.render gap []))
  | none => return .undefined

/-- Calls a function about documents. -/
def DocumentFunction.perform (f : DocumentFunction) (arguments : List Value) : Routine Value := do
  let first := argument arguments 0
  let second := argument arguments 1
  match f with
  | .parse => parseText first second
  | .write => writeText first second (argument arguments 2)

end HostView.Script
