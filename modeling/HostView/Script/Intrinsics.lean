import HostView.Script.Intrinsics.Fundamental
import HostView.Script.Intrinsics.Primitives
import HostView.Script.Intrinsics.Sequences

/-!
# Objects that are there from the start

The global object with all that it holds, and the handler of the bridge.
-/

namespace HostView.Script

namespace Intrinsic

/-! ### Spaces of functions -/

/-- The functions that are globals themselves. -/
def globalFunctions : List Method :=
  [⟨"parseInt", 2, .number .parseInt⟩, ⟨"parseFloat", 1, .number .parseFloat⟩,
    ⟨"isNaN", 1, .number .isNaN⟩, ⟨"isFinite", 1, .number .isFinite⟩,
    ⟨"queueMicrotask", 1, .functionOnly 0⟩, ⟨"decodeURI", 1, .address (.decode false)⟩,
    ⟨"decodeURIComponent", 1, .address (.decode true)⟩,
    ⟨"encodeURI", 1, .address (.encode false)⟩,
    ⟨"encodeURIComponent", 1, .address (.encode true)⟩, ⟨"escape", 1, .address .escape⟩,
    ⟨"unescape", 1, .address .unescape⟩]

/-- Functions and constants of calculus. -/
def withMath (objects : Array Object) : Array Object :=
  let real (name : String) (f : RealFunction) : Method := ⟨name, 1, .number (.real f)⟩
  let o := objects.size
  let objects := space "Math"
    [⟨"min", 2, .number .minimum⟩, ⟨"max", 2, .number .maximum⟩, real "abs" .magnitude,
      real "floor" .floor, real "ceil" .ceiling, real "round" .round, real "sqrt" .squareRoot,
      real "acos" .arcCosine, real "asin" .arcSine, real "atan" .arcTangent,
      ⟨"atan2", 2, .number .angle⟩, real "cos" .cosine, real "exp" .exponential,
      real "log" .logarithm, ⟨"pow", 2, .number .power⟩, real "sin" .sine, real "tan" .tangent,
      real "trunc" .whole, real "sign" .sign, real "cosh" .hyperbolicCosine,
      real "sinh" .hyperbolicSine, real "tanh" .hyperbolicTangent, real "acosh" .areaCosine,
      real "asinh" .areaSine, real "atanh" .areaTangent, real "expm1" .exponentialLess,
      real "log1p" .logarithmMore, real "log2" .binaryLogarithm, real "log10" .decimalLogarithm,
      real "cbrt" .cubeRoot, ⟨"hypot", 2, .number .distance⟩, ⟨"random", 0, .number .chance⟩,
      real "f16round" .half, real "fround" .single, ⟨"imul", 2, .number .product⟩,
      ⟨"clz32", 1, .number .leadingZeros⟩] objects
  fix o
    ([("E", 0x4005BF0A8B145769), ("LN10", 0x40026BB1BBB55516), ("LN2", 0x3FE62E42FEFA39EF),
      ("LOG2E", 0x3FF71547652B82FE), ("LOG10E", 0x3FDBCB7B1526E50E), ("PI", 0x400921FB54442D18),
      ("SQRT1_2", 0x3FE6A09E667F3BCD), ("SQRT2", 0x3FF6A09E667F3BCD)].map fun (name, w) =>
        (name, .float ⟨w⟩)) objects

/-- The functions of reflection. -/
def reflectFunctions : List Method :=
  [⟨"apply", 3, .reflect .apply⟩, ⟨"construct", 2, .reflect .construct⟩,
    ⟨"defineProperty", 3, .reflect .define⟩, ⟨"deleteProperty", 2, .reflect .delete⟩,
    ⟨"get", 2, .reflect .read⟩, ⟨"getOwnPropertyDescriptor", 2, .reflect .describe⟩,
    ⟨"getPrototypeOf", 1, .reflect .protoOf⟩, ⟨"has", 2, .reflect .has⟩,
    ⟨"isExtensible", 1, .reflect .isExtensible⟩, ⟨"ownKeys", 1, .reflect .keys⟩,
    ⟨"preventExtensions", 1, .reflect .close⟩, ⟨"set", 3, .reflect .write⟩,
    ⟨"setPrototypeOf", 2, .reflect .setProto⟩]

/-! ### Classes known by name -/

/-- The parts of a date that can be read and set, with the most arguments that setting takes. -/
def dateParts : List (String × Nat) :=
  [("Milliseconds", 1), ("Seconds", 2), ("Minutes", 3), ("Hours", 4), ("Date", 1), ("Month", 2),
    ("FullYear", 3)]

/-- Dates. -/
def withDates (objects : Array Object) : Array Object :=
  let owner := objects.size
  let refuse := alike (.refusing "not a Date object")
  let objects := newClass "Date" 7 (fun proto => .date (.make proto))
    [⟨"now", 0, .date .now⟩, ⟨"parse", 1, .date .parse⟩, ⟨"UTC", 7, .date .ofParts⟩]
    (refuse [("valueOf", 0), ("toString", 0)]) objects
  let n := objects.size
  let method := Property.data (.object n) false false true
  let objects := (add owner (.symbol .toPrimitive) method objects).push
    (builtin (.date .toPrimitive) 1 Symbol.toPrimitive.bracketed false)
  let objects := methods owner (refuse [("toUTCString", 0)]) objects
  let objects := secondName owner (.name "toGMTString") owner "toUTCString" objects
  let parts := ["FullYear", "Month", "Date", "Hours", "Minutes", "Seconds", "Milliseconds", "Day"]
  let objects := methods owner
    (refuse ([("toISOString", 0), ("toDateString", 0), ("toTimeString", 0), ("toLocaleString", 0),
      ("toLocaleDateString", 0), ("toLocaleTimeString", 0), ("getTimezoneOffset", 0),
      ("getTime", 0), ("getYear", 0)] ++
      parts.flatMap (fun p => [("get" ++ p, 0), ("getUTC" ++ p, 0)]) ++ [("setTime", 1)] ++
      (dateParts.take 6).flatMap (fun (p, n) => [("set" ++ p, n), ("setUTC" ++ p, n)]) ++
      [("setYear", 1), ("setFullYear", 3), ("setUTCFullYear", 3)])) objects
  methods owner [⟨"toJSON", 1, .date .document⟩] objects

/-- Patterns. -/
def withPatterns (objects : Array Object) : Array Object :=
  let objects := constructor pattern "RegExp" 2 (.pattern .make) [] objects
  let objects := species (global "RegExp" objects) objects
  let objects := getter pattern (.name "flags") "flags" (.pattern .flags) objects
  let objects := getter pattern (.name "source") "source" (.pattern .source) objects
  let objects :=
    [("global", 'g'), ("ignoreCase", 'i'), ("multiline", 'm'), ("dotAll", 's'), ("unicode", 'u'),
      ("unicodeSets", 'v'), ("sticky", 'y'), ("hasIndices", 'd')].foldl
      (fun objects (name, letter) =>
        getter pattern (.name name) (.text name) (.pattern (.flag letter)) objects) objects
  let objects := methods pattern
    [⟨"exec", 1, .pattern .exec⟩, ⟨"compile", 2, .pattern .remake⟩, ⟨"test", 1, .pattern .test⟩,
      ⟨"toString", 0, .pattern .text⟩] objects
  [("replace", 2, PatternFunction.replace), ("match", 1, .find), ("matchAll", 1, .findAll),
    ("search", 1, .search), ("split", 2, .split)].foldl
    (fun objects (name, length, f) =>
      symbolMethod pattern (.wellKnown name) length (.pattern f) objects) objects

/-- Promises. -/
def withPromises (objects : Array Object) : Array Object :=
  let owner := objects.size
  let gather (name : String) : Method := ⟨name, 1, .promise .gather⟩
  let objects := newClass "Promise" 1 (fun proto => .promise (.make proto))
    [⟨"resolve", 1, .promise .kept⟩, ⟨"reject", 1, .promise .broken⟩, gather "all",
      gather "allSettled", gather "any", ⟨"try", 1, .promise .attempt⟩, gather "race",
      ⟨"withResolvers", 0, .promise .parts⟩]
    [⟨"then", 2, .promise .followUp⟩, ⟨"catch", 1, .promise .onFailure⟩,
      ⟨"finally", 1, .promise .onEnd⟩] objects
  tagged owner "Promise" (species (global "Promise" objects) objects)

/-- References that do not hold what they refer to. -/
def withWeakReferences (objects : Array Object) : Array Object :=
  let owner := objects.size
  let objects :=
    newClass "WeakRef" 1 (.construct true) [] (refusing "WeakRef" [("deref", 0)]) objects
  let objects := tagged owner "WeakRef" objects
  let owner := objects.size
  let objects := newClass "FinalizationRegistry" 1 (.construct true) []
    (refusing "FinalizationRegistry" [("register", 2), ("unregister", 1)]) objects
  tagged owner "FinalizationRegistry" objects

/-- The errors of documents, which carry a code. -/
def withDocumentErrors (objects : Array Object) : Array Object :=
  let owner := objects.size
  let objects := objects.push (bare .ordinary (some error))
  let objects := constructor owner "DOMException" 2 (.construct true owner) [] objects
  let objects := getters owner (.refusing "DOMException object expected")
    ["name", "message", "code"] objects
  let objects := tagged owner "DOMException" objects
  let names := ["INDEX_SIZE_ERR", "DOMSTRING_SIZE_ERR", "HIERARCHY_REQUEST_ERR",
    "WRONG_DOCUMENT_ERR", "INVALID_CHARACTER_ERR", "NO_DATA_ALLOWED_ERR",
    "NO_MODIFICATION_ALLOWED_ERR", "NOT_FOUND_ERR", "NOT_SUPPORTED_ERR", "INUSE_ATTRIBUTE_ERR",
    "INVALID_STATE_ERR", "SYNTAX_ERR", "INVALID_MODIFICATION_ERR", "NAMESPACE_ERR",
    "INVALID_ACCESS_ERR", "VALIDATION_ERR", "TYPE_MISMATCH_ERR", "SECURITY_ERR", "NETWORK_ERR",
    "ABORT_ERR", "URL_MISMATCH_ERR", "QUOTA_EXCEEDED_ERR", "TIMEOUT_ERR",
    "INVALID_NODE_TYPE_ERR", "DATA_CLONE_ERR"]
  let codes := names.zipIdx.map fun (name, i) => (name, Value.ofInt (i + 1))
  fix owner codes (fix (global "DOMException" objects) codes objects)

/-! ### Everything -/

/-- The globals that come first: fundamental objects, arrays, and functions about primitive values.
-/
def withBase (objects : Array Object) : Array Object :=
  let objects := withArrays (withIterators (withFundamentals objects))
  let objects := methods globals globalFunctions objects
  let objects := fix globals
    [("Infinity", .float ⟨0x7FF0000000000000⟩), ("NaN", .float .nan), ("undefined", .undefined)]
    objects
  let objects := withMath (withStrings (withBooleans (withNumbers objects)))
  let objects := withSymbols (space "Reflect" reflectFunctions objects)
  tagged globals "global" (hide globals "globalThis" (.object globals) objects)

/-- The globals that follow. -/
def withRest (objects : Array Object) : Array Object :=
  let objects := methods globals [⟨"eval", 1, .evaluate⟩] (withDates objects)
  let objects := space "JSON"
    [⟨"parse", 2, .document .parse⟩, ⟨"stringify", 3, .document .write⟩] (withPatterns objects)
  let n := objects.size
  let objects := (hide globals "Proxy" (.object n) objects).push
    (builtin (.makeProxy false) 2 "Proxy" true)
  let objects := methods n [⟨"revocable", 2, .makeProxy true⟩] objects
  let objects := withBinaryData (withCollections objects)
  let refuse := alike (.refusing "integer TypedArray expected")
  let objects := space "Atomics"
    (refuse [("add", 3), ("and", 3), ("or", 3), ("sub", 3), ("xor", 3), ("exchange", 3),
      ("compareExchange", 4), ("load", 2), ("store", 3)] ++
      [⟨"isLockFree", 1, .number .isLockFree⟩, ⟨"pause", 0, .number .pause⟩] ++
      refuse [("wait", 4), ("notify", 3)]) objects
  let objects := withWeakReferences (withBigInts (withPromises objects))
  let objects := withDocumentErrors objects
  let o := objects.size
  let objects := objects.push (bare .ordinary (some object))
  let objects := hide globals "performance" (.object o) objects
  let objects := hide o "timeOrigin" (.float ⟨0x3FE0000000000000⟩) objects
  methods o [⟨"now", 0, .number .chance⟩] objects

/-- The methods by which the bridge answers for live values. -/
def withBridge (objects : Array Object) : Array Object :=
  Trap.all.foldl (fun objects t =>
    (add bridge (.name t.name) (.plain (.object objects.size)) objects).push
      ⟨.function (.trap t) false, some function, true, functionProperties 0 none⟩) objects

/-- Every object that is there from the start. -/
def all : Array Object := withBridge (withRest (withBase prototypes))

/-- The prototype of the errors of a class. -/
def errorClass? (name : String) : Option ObjectId := do
  let constructor ← (held globals name all).object?
  let object ← all[constructor]?
  match object.kind with
  | .function (.builtin (.makeError proto _)) _ => some proto
  | _ => none

end Intrinsic

end HostView.Script
