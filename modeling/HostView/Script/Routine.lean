import HostView.Script.Discipline

/-!
# Routines of the engine

A turn is what the engine does by itself: it reads and changes the objects of the script and may
call functions. Whatever it does to host values it does by calls, so it keeps every discipline that
they keep; a turn carries that fact with it. A routine is a turn that may throw.
-/

namespace HostView.Script

variable {α β ε : Type}

/-- A step of the engine, which leaves the bridge to the functions that it calls. -/
structure Turn (α : Type) where
  run : Effect α
  keeps : ∀ D : Discipline, D.Keeps run

namespace Turn

instance : Monad Turn where
  pure x := ⟨pure x, fun _ => .pure x⟩
  bind a f := ⟨a.run >>= fun x => (f x).run, fun D => (a.keeps D).bind fun x => (f x).keeps D⟩

instance : MonadStateOf Engine Turn where
  get := ⟨_, fun _ => .onEngine fun e => (e, e)⟩
  set e := ⟨_, fun _ => .onEngine fun _ => ((), e)⟩
  modifyGet f := ⟨_, fun _ => .onEngine f⟩

/-- The number of host values. -/
def heapSize : Turn Nat := ⟨_, fun _ => .heapSize⟩

instance : MonadLiftT Turn Effect := ⟨run⟩

instance : MonadLiftT (ExceptT ε Turn) (ExceptT ε Effect) := ⟨fun a => ExceptT.mk (run a.run)⟩

end Turn

/-- A step of the engine that may throw. -/
abbrev Routine := ExceptT Thrown Turn

/-- The object that an operation needs. -/
def needObject : Value → Routine ObjectId
  | .object o => return o
  | _ => throw .notObject

/-- Calls an object that can be called, or constructs by it. -/
def callFor (o : ObjectId) (purpose : Purpose) (arguments : List Value) : Routine Value :=
  ExceptT.mk ⟨_, fun _ => .call o purpose arguments⟩

/-- Calls a value, which must be a function. A proxy is asked even if it stands before something
else. -/
def callValue (f this : Value) (arguments : List Value) : Routine Value := do
  match f with
  | .object o =>
    match ((← get).object o).kind with
    | .function _ _ | .proxy _ _ => callFor o (.call this) arguments
    | _ => throw .notFunction
  | _ => throw .notFunction

/-- A new object. -/
def newObject (o : Object) : Routine ObjectId :=
  modifyGet fun e => (e.objects.size, { e with objects := e.objects.push o })

/-- Changes an object. -/
def modifyObject (o : ObjectId) (f : Object → Object) : Routine Unit :=
  modify fun e => { e with objects := e.objects.modify o f }

/-- The object of the given number. -/
def getObject (o : ObjectId) : Routine Object := do
  return (← get).object o

/-- A new object with the given properties. -/
def newWith (properties : List (Key × Property)) : Routine ObjectId :=
  newObject ⟨.ordinary, some Intrinsic.object, true, properties⟩

/-- A primitive value as a new object; that of a string has the length as a property. -/
def newBox (v : Value) (proto : ObjectId) : Routine ObjectId :=
  newObject ⟨.boxed v, some proto, true,
    match v with
    | .string s => [(.length, .data (.ofInt s.units.length) false false false)]
    | _ => []⟩

/-- A new plain object without properties. -/
def newPlain : Routine ObjectId := newWith []

/-- A new array. -/
def newArray (items : List Value) : Routine ObjectId :=
  newObject ⟨.array items.length false, some Intrinsic.array, true,
    items.zipIdx.map fun (v, i) => (.item i, .plain v)⟩

/-- A new function, which need not have a name; one that constructs has an object from which what
it constructs inherits. -/
def newFunction (f : Callable) (constructs : Bool) (name : Option ScriptString) :
    Routine ObjectId := do
  let o ← newObject ⟨.function f constructs, some Intrinsic.function, true,
    Intrinsic.functionProperties 0 name⟩
  if constructs then
    let p ← newObject ⟨.unmade o, some Intrinsic.object, true, []⟩
    modifyObject o fun object => object.put (.name "prototype") (.data (.object p) true false false)
  return o

/-- A proxy before a target. -/
def newProxy (target handler : ObjectId) : Routine ObjectId :=
  newObject ⟨.proxy target handler, none, true, []⟩

end HostView.Script
