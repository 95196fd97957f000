import HostView.Script.Intrinsics.Builder

/-!
# Objects, functions and errors

The constructors of plain objects, functions and errors, and the methods that their prototypes
hold.
-/

namespace HostView.Script

namespace Intrinsic

/-! ### Objects -/

/-- Functions about objects. -/
def objectStatics : List Method :=
  [⟨"create", 2, .object .derive⟩, ⟨"getPrototypeOf", 1, .object .protoOf⟩,
    ⟨"setPrototypeOf", 2, .object .withProto⟩, ⟨"defineProperty", 3, .object .define⟩,
    ⟨"defineProperties", 2, .object .defineAll⟩, ⟨"getOwnPropertyNames", 1, .object .ownNames⟩,
    ⟨"getOwnPropertySymbols", 1, .object .ownSymbols⟩, ⟨"groupBy", 2, .group⟩,
    ⟨"keys", 1, .object .names⟩, ⟨"values", 1, .object .values⟩,
    ⟨"entries", 1, .object .entries⟩, ⟨"isExtensible", 1, .object (.integrity .isExtensible)⟩,
    ⟨"preventExtensions", 1, .object (.integrity .preventExtensions)⟩,
    ⟨"getOwnPropertyDescriptor", 2, .object .describe⟩,
    ⟨"getOwnPropertyDescriptors", 1, .object .describeAll⟩, ⟨"is", 2, .object .same⟩,
    ⟨"assign", 2, .object .assign⟩, ⟨"seal", 1, .object (.integrity .seal)⟩,
    ⟨"freeze", 1, .object (.integrity .freeze)⟩, ⟨"isSealed", 1, .object (.integrity .isSealed)⟩,
    ⟨"isFrozen", 1, .object (.integrity .isFrozen)⟩, ⟨"fromEntries", 1, .ofEntries⟩,
    ⟨"hasOwn", 2, .object .hasOwnNamed⟩]

/-- The constructor and the methods of plain objects. -/
def withObjects (objects : Array Object) : Array Object :=
  let objects := constructor object "Object" 1 (.object .make) objectStatics objects
  let objects := methods object
    [⟨"toString", 0, .object .text⟩, ⟨"toLocaleString", 0, .object .localText⟩,
      ⟨"valueOf", 0, .object .self⟩, ⟨"hasOwnProperty", 1, .object .hasOwn⟩,
      ⟨"isPrototypeOf", 1, .object .isPrototypeOf⟩,
      ⟨"propertyIsEnumerable", 1, .object .isEnumerable⟩] objects
  let objects := accessor object (.name "__proto__") "__proto__" (.object .readProto)
    (.object .replaceProto) objects
  methods object
    [⟨"__defineGetter__", 2, .object (.addAccessor false)⟩,
      ⟨"__defineSetter__", 2, .object (.addAccessor true)⟩,
      ⟨"__lookupGetter__", 1, .object (.findAccessor false)⟩,
      ⟨"__lookupSetter__", 1, .object (.findAccessor true)⟩] objects

/-! ### Functions -/

/-- The properties of functions that nobody may read. -/
def restricted (objects : Array Object) : Array Object :=
  let refuse := objects.size
  let p := Property.accessor (some refuse) (some refuse) false true
  let objects := objects.modify function fun o =>
    { o with
      properties :=
        functionProperties 0 (some "") ++ [(.name "caller", p), (.name "arguments", p)] }
  let fixed := (builtin .forbidden 0 "" false).properties.map fun (k, p) =>
    (k, match p with
      | .data v _ _ _ => Property.data v false false false
      | p => p)
  objects.push ⟨.function (.builtin .forbidden) false, some function, false, fixed⟩

/-- The constructor and the methods of functions. -/
def withFunctions (objects : Array Object) : Array Object :=
  let objects := methods function
    [⟨"call", 1, .function .call⟩, ⟨"apply", 2, .function .apply⟩, ⟨"bind", 1, .function .bind⟩,
      ⟨"toString", 0, .function .text⟩] (restricted objects)
  let objects := symbolMethod function (.wellKnown "hasInstance") 1 (.function .hasInstance) objects
  let objects := objects.modify function fun o =>
    match o.find? (.symbol (.wellKnown "hasInstance")) with
    | some (.data v _ _ _) =>
      o.put (.symbol (.wellKnown "hasInstance")) (.data v false false false)
    | _ => o
  let objects := getters function .other ["fileName", "lineNumber", "columnNumber"] objects
  constructor function "Function" 1 .makeFunction [] objects

/-! ### Errors -/

/-- Makes the constructor of a class of errors inherit from that of all errors. -/
def underErrors (name : String) (objects : Array Object) : Array Object :=
  let parent := global "Error" objects
  objects.modify (global name objects) fun o => { o with proto := some parent }

/-- Adds a class of errors to its prototype, which inherits from that of all errors. -/
def errorClassAt (owner : ObjectId) (name : String) (length : Nat) (several : Bool)
    (objects : Array Object) : Array Object :=
  let objects := hide owner "message" (.string "") (hide owner "name" (.string name) objects)
  underErrors name (constructor owner name length (.makeError owner several) [] objects)

/-- Adds a class of errors. -/
def newErrorClass (name : String) (objects : Array Object) : Array Object :=
  errorClassAt objects.size name 1 false (objects.push (bare .ordinary (some error)))

/-- The classes of errors that the engine throws or scripts may throw, apart from that of several
errors. -/
def errorClasses : List String :=
  ["EvalError", "RangeError", "ReferenceError", "SyntaxError", "TypeError", "URIError",
    "InternalError"]

/-- The constructors and the methods of errors. -/
def withErrors (objects : Array Object) : Array Object :=
  let objects := methods error [⟨"toString", 0, .errorText⟩] objects
  let objects := hide error "message" (.string "") (hide error "name" (.string "Error") objects)
  let objects :=
    constructor error "Error" 1 (.makeError error false) [⟨"captureStackTrace", 2, .markPlace⟩]
      objects
  let errors := global "Error" objects
  let objects :=
    hide errors "prepareStackTrace" .undefined (hide errors "stackTraceLimit" (.int 10) objects)
  let objects := errorClasses.foldl (fun objects name => newErrorClass name objects) objects
  errorClassAt severalErrors "AggregateError" 2 true objects

/-- Constructors, methods and errors of objects and functions. -/
def withFundamentals (objects : Array Object) : Array Object :=
  withErrors (withFunctions (withObjects objects))

end Intrinsic

end HostView.Script
