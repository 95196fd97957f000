import HostView.Script.Object

/-!
# Building objects that are there from the start

The numbers of the prototypes from which values inherit, and the steps by which objects get their
functions and constants. An object lists its properties in the order in which they are added.
-/

namespace HostView.Script

namespace Intrinsic

/-- The prototype of plain objects. -/
def object : ObjectId := 0

/-- The prototype of functions. -/
def function : ObjectId := 1

/-- The prototype of arrays. -/
def array : ObjectId := 2

/-- The prototype of errors. -/
def error : ObjectId := 3

/-- The prototype of strings. -/
def string : ObjectId := 4

/-- The prototype of numbers. -/
def number : ObjectId := 5

/-- The prototype of truth values. -/
def boolean : ObjectId := 6

/-- The prototype of symbols. -/
def symbol : ObjectId := 7

/-- The prototype of big integers. -/
def bigInt : ObjectId := 8

/-- The prototype of wraps. -/
def wrap : ObjectId := 9

/-- The object that holds the globals. -/
def globals : ObjectId := 10

/-- The handler of the proxies before live values. -/
def bridge : ObjectId := 11

/-- The prototype of iterators. -/
def iterator : ObjectId := 12

/-- The prototype of iterators over lists. -/
def listIterator : ObjectId := 13

/-- The prototype of iterators over texts. -/
def textIterator : ObjectId := 14

/-- The prototype of iterators over what a pattern finds. -/
def patternIterator : ObjectId := 15

/-- The prototype of iterators made of others. -/
def stageIterator : ObjectId := 16

/-- The prototype of iterators that stand before others. -/
def wrapIterator : ObjectId := 17

/-- The prototype of patterns. -/
def pattern : ObjectId := 18

/-- The prototype of errors of several errors. -/
def severalErrors : ObjectId := 19

/-- The prototype of a kind of primitive values. -/
def ofPrimitive : Primitive → ObjectId
  | .string => string
  | .number => number
  | .boolean => boolean
  | .symbol => symbol
  | .bigInt => bigInt

/-- An object without properties. -/
def bare (kind : ObjectKind) (proto : Option ObjectId) : Object := ⟨kind, proto, true, []⟩

/-- The objects above, before they have properties. -/
def prototypes : Array Object :=
  let plain := bare .ordinary (some object)
  let iterates := bare .ordinary (some iterator)
  #[bare .ordinary none, bare (.function (.scripted []) false) (some object),
    bare (.array 0 false) (some object), plain, bare (.boxed (.string "")) (some object),
    bare (.boxed (.int 0)) (some object), bare (.boxed (.bool false)) (some object), plain, plain,
    plain, plain, plain, plain, iterates, iterates, iterates, iterates, iterates, plain,
    bare .ordinary (some error)]

/-- The name of a function as a property. -/
def functionName (name : ScriptString) : Property := .data (.string name) false false true

/-- The properties of a function: how many arguments it names, and its name if it has one. -/
def functionProperties (length : Nat) (name : Option ScriptString) : List (Key × Property) :=
  (.length, .data (.ofInt length) false false true) ::
    (name.map fun name => (.name "name", functionName name)).toList

/-- A function of the engine. -/
def builtin (b : Builtin) (length : Nat) (name : ScriptString) (constructs : Bool) : Object :=
  ⟨.function (.builtin b) constructs, some function, true, functionProperties length (some name)⟩

/-- Adds a property. -/
def add (owner : ObjectId) (k : Key) (p : Property) (objects : Array Object) : Array Object :=
  objects.modify owner fun o => o.put k p

/-- Adds a hidden property. -/
def hide (owner : ObjectId) (name : String) (v : Value) (objects : Array Object) : Array Object :=
  add owner (.name name) (.hidden v) objects

/-- Adds properties that never change. -/
def fix (owner : ObjectId) (members : List (String × Value)) (objects : Array Object) :
    Array Object :=
  members.foldl (fun objects (name, v) =>
    add owner (.name name) (.data v false false false) objects) objects

/-- Names the class of the objects that inherit from `owner`. -/
def tagged (owner : ObjectId) (name : String) (objects : Array Object) : Array Object :=
  add owner (.symbol .toStringTag) (.data (.string name) false false true) objects

/-- The value that a property of an object holds from the start. -/
def held (owner : ObjectId) (name : String) (objects : Array Object) : Value :=
  (((objects[owner]?).bind (·.find? (.name name))).bind Property.value?).getD .undefined

/-- The global of the given name, if it is an object. -/
def global (name : String) (objects : Array Object) : ObjectId :=
  (held globals name objects).object?.getD globals

/-- A method: its name, how many arguments it names, and what it does. -/
structure Method where
  name : String
  length : Nat
  function : Builtin

/-- Adds functions as hidden properties. -/
def methods (owner : ObjectId) (ms : List Method) (objects : Array Object) : Array Object :=
  ms.foldl (fun objects m =>
    (hide owner m.name (.object objects.size) objects).push
      (builtin m.function m.length m.name false)) objects

/-- Methods that do the same, each with the number of arguments that it names. -/
def alike (function : Builtin) (names : List (String × Nat)) : List Method :=
  names.map fun (name, length) => ⟨name, length, function⟩

/-- Adds a function as a hidden property named by a symbol. -/
def symbolMethod (owner : ObjectId) (s : Symbol) (length : Nat) (b : Builtin)
    (objects : Array Object) : Array Object :=
  (add owner (.symbol s) (.hidden (.object objects.size)) objects).push
    (builtin b length s.bracketed false)

/-- Adds a hidden property that is read by a function. -/
def getter (owner : ObjectId) (k : Key) (name : ScriptString) (b : Builtin)
    (objects : Array Object) : Array Object :=
  (add owner k (.accessor (some objects.size) none false true) objects).push
    (builtin b 0 (ScriptString.append "get " name) false)

/-- Adds hidden properties that are read by functions. -/
def getters (owner : ObjectId) (b : Builtin) (names : List String) (objects : Array Object) :
    Array Object :=
  names.foldl (fun objects name => getter owner (.name name) name b objects) objects

/-- Adds a hidden property that is read and written by functions. -/
def accessor (owner : ObjectId) (k : Key) (name : ScriptString) (get set : Builtin)
    (objects : Array Object) : Array Object :=
  let n := objects.size
  ((add owner k (.accessor (some n) (some (n + 1)) false true) objects).push
    (builtin get 0 (ScriptString.append "get " name) false)).push
    (builtin set 1 (ScriptString.append "set " name) false)

/-- Adds a second name for a function. -/
def secondName (owner : ObjectId) (k : Key) (source : ObjectId) (name : String)
    (objects : Array Object) : Array Object :=
  add owner k (.hidden (held source name objects)) objects

/-- A constructor gives itself as the one that its methods are to use. -/
def species (constructor : ObjectId) (objects : Array Object) : Array Object :=
  getter constructor (.symbol .species) Symbol.species.bracketed .self objects

/-- Adds an object that holds functions as a global. -/
def space (name : String) (ms : List Method) (objects : Array Object) : Array Object :=
  let o := objects.size
  let objects := hide globals name (.object o) (objects.push (bare .ordinary (some object)))
  tagged o name (methods o ms objects)

/-- Adds the constructor of the objects that inherit from `owner`, with functions of its own, as a
global. -/
def constructor (owner : ObjectId) (name : String) (length : Nat) (b : Builtin)
    (statics : List Method) (objects : Array Object) : Array Object :=
  let self := objects.size
  let objects := hide globals name (.object self) (hide owner "constructor" (.object self) objects)
  let f := builtin b length name true
  methods self statics
    (objects.push (f.put (.name "prototype") (.data (.object owner) false false false)))

/-- Adds a class: a prototype with methods, and its constructor with functions of its own. -/
def newClass (name : String) (length : Nat) (make : ObjectId → Builtin) (statics ms : List Method)
    (objects : Array Object) : Array Object :=
  let owner := objects.size
  let objects := objects.push (bare .ordinary (some object))
  methods owner ms (constructor owner name length (make owner) statics objects)

/-- The functions of a class of which scripts have no objects. -/
def refusing (name : String) (names : List (String × Nat)) : List Method :=
  alike (.refusing (name ++ " object expected")) names

end Intrinsic

end HostView.Script
