import HostView.Exposure.Integers
import HostView.Exposure.Offsets
import HostView.Script.Intrinsics
import HostView.Script.Thrown

/-!
# The script machine

The whole state behind a script has two parts. The engine has the objects of the script; the
bridge has the host heap, the wraps between the two, and the caches. An action may change the
machine and may throw; what it changed before it threw stays. An action may also call functions,
wherever a property has a getter or a value is converted, so how functions are called is known to
every action.
-/

namespace HostView.Script

/-- What the engine keeps. -/
structure Engine where
  objects : Array Object
  /-- The serial number of the next symbol. -/
  nextSymbol : Nat
  /-- The lines written to the console, last first. -/
  console : List String

/-- What the bridge keeps. -/
structure Bridge where
  heap : Heap
  wraps : Ledger
  /-- What the functions that take snapshots were made for: a host value and a mask. -/
  snapshots : Array (Ref × Mask)
  offsets : OffsetCache
  integers : IntegerCache

/-- The state behind a script. -/
structure Machine extends Engine, Bridge

/-- What a function is called for. -/
inductive Purpose where
  /-- To do what it does on a value. -/
  | call (this : Value)
  /-- To construct an object that inherits from the prototype which the target names. -/
  | construct (target : ObjectId)

namespace Purpose

/-- The value that a function is called on; a function that constructs is called on none. -/
def this : Purpose → Value
  | .call v => v
  | .construct _ => .undefined

/-- The constructor whose prototype the new object is to have. -/
def target? : Purpose → Option ObjectId
  | .call _ => none
  | .construct target => some target

end Purpose

/-- A way to call functions: which object is called, what for and with which arguments. -/
abbrev Caller := ObjectId → Purpose → List Value → ExceptT Thrown (StateM Machine) Value

/-- A change of the machine, given a way to call functions. -/
abbrev Effect := ReaderT Caller (StateM Machine)

/-- A step of a script. -/
abbrev Action := ExceptT Thrown Effect

/-- An engine at the start of a script. -/
def Engine.start : Engine := ⟨Intrinsic.all, 0, []⟩

/-- A bridge at the start of a script, over the given host values. -/
def Bridge.start (heap : Heap) : Bridge := ⟨heap, .empty, #[], .empty, .empty⟩

/-- A machine at the start of a script, over the given host values. -/
def Machine.start (heap : Heap) : Machine := ⟨.start, .start heap⟩

namespace Engine

/-- The object of the given number. -/
def object (e : Engine) (o : ObjectId) : Object := e.objects[o]?.getD default

/-- A bound on the length of a chain of prototypes and proxies in which no object occurs twice. -/
def chainLimit (e : Engine) : Nat := e.objects.size + 1

/-- The array, function or other object that a row of proxies stands before. -/
def behindProxies (e : Engine) : Nat → ObjectId → ObjectId
  | 0, o => o
  | n + 1, o =>
    match (e.object o).kind with
    | .proxy target _ => e.behindProxies n target
    | _ => o

/-- The object is an array, or a row of proxies before one. -/
def isArray (e : Engine) (o : ObjectId) : Bool :=
  match (e.object (e.behindProxies e.chainLimit o)).kind with
  | .array _ _ => true
  | _ => false

/-- What the object does when it is called, and whether it constructs, if it is a function or a
row of proxies before one. -/
def callable? (e : Engine) (o : ObjectId) : Option (Callable × Bool) :=
  match (e.object (e.behindProxies e.chainLimit o)).kind with
  | .function f constructs => some (f, constructs)
  | _ => none

/-- The value is a function, or a row of proxies before one. -/
def isFunction (e : Engine) (v : Value) : Bool :=
  v.object?.any fun o => (e.callable? o).isSome

/-- The value is a constructor, or a row of proxies before one. -/
def isConstructor (e : Engine) (v : Value) : Bool :=
  v.object?.any fun o => (e.callable? o).any (·.2)

/-- The word for the type of a value in diagnostics. -/
def typeName (e : Engine) : Value → String
  | .undefined => "undefined"
  | .null => "null"
  | .bool _ => "bool"
  | .int _ => "int"
  | .float _ => "float"
  | .bigInt _ => "big_int"
  | .string _ => "string"
  | .symbol _ => "symbol"
  | .object o =>
    if e.isArray o then "array"
    else
      match e.callable? o with
      | some (_, true) => "constructor"
      | some (_, false) => "function"
      | none =>
        match (e.object o).kind with
        | .error => "exception"
        | .promise => "promise"
        | _ => "object"

end Engine

/-- The argument at an index; one that was not given is undefined. -/
def argument (arguments : List Value) (index : Nat) : Value := arguments[index]?.getD .undefined

end HostView.Script
