import HostView.Script.Intrinsics.Builder

/-!
# Arrays, iterators and collections

The constructors of arrays, iterators and collections, and the methods that their prototypes hold.
-/

namespace HostView.Script

namespace Intrinsic

/-! ### Arrays -/

/-- The methods of arrays up to the one that gives an iterator. -/
def arrayMethods : List Method :=
  let visit (name : String) (v : Visit) : Method := ⟨name, 1, .sequence (.visit v)⟩
  let find (name : String) (last place : Bool) : Method := ⟨name, 1, .sequence (.find last place)⟩
  [⟨"at", 1, .sequence .item⟩, ⟨"with", 2, .sequence .replaced⟩, ⟨"concat", 1, .sequence .concat⟩,
    visit "every" .every, visit "some" .some, visit "forEach" .forEach, visit "map" .map,
    visit "filter" .filter, ⟨"reduce", 1, .sequence (.reduce false)⟩,
    ⟨"reduceRight", 1, .sequence (.reduce true)⟩, ⟨"fill", 1, .sequence .fill⟩,
    find "find" false false, find "findIndex" false true, find "findLast" true false,
    find "findLastIndex" true true, ⟨"indexOf", 1, .sequence .indexOf⟩,
    ⟨"lastIndexOf", 1, .sequence .lastIndexOf⟩, ⟨"includes", 1, .sequence .includes⟩,
    ⟨"join", 1, .sequence .join⟩, ⟨"toString", 0, .sequence .text⟩,
    ⟨"toLocaleString", 0, .sequence .localText⟩, ⟨"pop", 0, .sequence .pop⟩,
    ⟨"push", 1, .sequence .push⟩, ⟨"shift", 0, .sequence .shift⟩,
    ⟨"unshift", 1, .sequence .unshift⟩, ⟨"reverse", 0, .sequence .reverse⟩,
    ⟨"toReversed", 0, .sequence .reversed⟩, ⟨"sort", 1, .sequence .sort⟩,
    ⟨"toSorted", 1, .sequence .sorted⟩, ⟨"slice", 2, .sequence .slice⟩,
    ⟨"splice", 2, .sequence .splice⟩, ⟨"toSpliced", 2, .sequence .spliced⟩,
    ⟨"copyWithin", 2, .sequence .copyWithin⟩, ⟨"flatMap", 1, .sequence .flatMap⟩,
    ⟨"flat", 0, .sequence .flat⟩, ⟨"values", 0, .sequence (.iterate .value)⟩]

/-- The names of newer methods, which a certain statement does not take for variables. -/
def unscopableNames : List String :=
  ["at", "copyWithin", "entries", "fill", "find", "findIndex", "findLast", "findLastIndex", "flat",
    "flatMap", "includes", "keys", "toReversed", "toSorted", "toSpliced", "values"]

/-- The constructor and the methods of arrays. -/
def withArrays (objects : Array Object) : Array Object :=
  let objects := constructor array "Array" 1 (.sequence .make)
    [⟨"isArray", 1, .sequence .isArray⟩, ⟨"from", 1, .sequence .ofItems⟩,
      ⟨"fromAsync", 1, .promise .later⟩, ⟨"of", 0, .sequence .of⟩] objects
  let objects := species (global "Array" objects) objects
  let objects := methods array arrayMethods objects
  let objects := secondName array (.symbol .iterator) array "values" objects
  let objects := methods array
    [⟨"keys", 0, .sequence (.iterate .key)⟩, ⟨"entries", 0, .sequence (.iterate .entry)⟩] objects
  let n := objects.size
  let unscopables : Object :=
    ⟨.ordinary, none, true,
      unscopableNames.map fun name => (.name name, .plain (.bool true))⟩
  (add array (.symbol (.wellKnown "unscopables")) (.data (.object n) false false true)
    objects).push unscopables

/-! ### Iterators -/

/-- The methods of iterators. -/
def iteratorMethods : List Method :=
  [⟨"drop", 1, .iterator .drop⟩, ⟨"filter", 1, .iterator (.visit .filter)⟩,
    ⟨"flatMap", 1, .iterator .flatMap⟩, ⟨"map", 1, .iterator (.visit .map)⟩,
    ⟨"take", 1, .iterator .take⟩, ⟨"every", 1, .iterator (.visit .every)⟩,
    ⟨"find", 1, .iterator .find⟩, ⟨"forEach", 1, .iterator (.visit .forEach)⟩,
    ⟨"some", 1, .iterator (.visit .some)⟩, ⟨"reduce", 1, .iterator .reduce⟩,
    ⟨"toArray", 0, .iterator .toArray⟩]

/-- A class of iterators with its methods. -/
def iterates (owner : ObjectId) (c : IteratorClass) (closes : Bool) (objects : Array Object) :
    Array Object :=
  let close := if closes then [⟨"return", 0, .iterator (.close c)⟩] else []
  methods owner (⟨"next", 0, .iterator (.next c)⟩ :: close) objects

/-- A class of iterators that has a name. -/
def iteratesAs (owner : ObjectId) (c : IteratorClass) (closes : Bool) (objects : Array Object) :
    Array Object :=
  tagged owner c.render (iterates owner c closes objects)

/-- The constructor and the methods of iterators. -/
def withIterators (objects : Array Object) : Array Object :=
  let objects := constructor iterator "Iterator" 0 (.iterator .make)
    [⟨"from", 1, .iterator .ofValue⟩] objects
  let objects := methods iterator iteratorMethods objects
  let objects := symbolMethod iterator .iterator 0 (.iterator .self) objects
  let objects := accessor iterator (.symbol .toStringTag) Symbol.toStringTag.bracketed
    (.iterator .tag) (.iterator .setTag) objects
  let objects := iteratesAs listIterator .list false objects
  let objects := iteratesAs textIterator .text false objects
  let objects := iteratesAs patternIterator .pattern false objects
  let objects := iteratesAs stageIterator .stage true objects
  iterates wrapIterator .wrap true objects

/-! ### Collections -/

/-- Adds a collection, whose size may be read. -/
def collection (name : String) (statics ms : List Method) (sized : Bool) (objects : Array Object) :
    Array Object :=
  let owner := objects.size
  let objects := newClass name 0 (.construct false) statics ms objects
  let objects := if sized then species (global name objects) objects else objects
  let refuse := Builtin.refusing (name ++ " object expected")
  let objects := if sized then getters owner refuse ["size"] objects else objects
  tagged owner name objects

/-- The collections. -/
def withCollections (objects : Array Object) : Array Object :=
  let objects := collection "Map" [⟨"groupBy", 2, .functionOnly 1⟩]
    (refusing "Map" [("set", 2), ("get", 1), ("has", 1), ("delete", 1), ("clear", 0),
      ("forEach", 1), ("values", 0), ("keys", 0), ("entries", 0)]) true objects
  let proto := (held (global "Map" objects) "prototype" objects).object?.getD object
  let objects := secondName proto (.symbol .iterator) proto "entries" objects
  let objects := collection "Set" []
    (refusing "Set" [("add", 1), ("has", 1), ("delete", 1), ("clear", 0), ("forEach", 1),
      ("isDisjointFrom", 1), ("isSubsetOf", 1), ("isSupersetOf", 1), ("intersection", 1),
      ("difference", 1), ("symmetricDifference", 1), ("union", 1), ("values", 0)]) true objects
  let proto := (held (global "Set" objects) "prototype" objects).object?.getD object
  let objects := secondName proto (.name "keys") proto "values" objects
  let objects := secondName proto (.symbol .iterator) proto "values" objects
  let objects := methods proto (refusing "Set" [("entries", 0)]) objects
  let objects := collection "WeakMap" []
    (refusing "WeakMap" [("set", 2), ("get", 1), ("has", 1), ("delete", 1)]) false objects
  collection "WeakSet" [] (refusing "WeakSet" [("add", 1), ("has", 1), ("delete", 1)]) false objects

/-! ### Binary data -/

/-- The methods of arrays of numbers of one format. -/
def typedMethods : List (String × Nat) :=
  [("at", 1), ("with", 2), ("set", 1), ("values", 0), ("keys", 0), ("entries", 0),
    ("copyWithin", 2), ("every", 1), ("some", 1), ("forEach", 1), ("map", 1), ("filter", 1),
    ("reduce", 1), ("reduceRight", 1), ("fill", 1), ("find", 1), ("findIndex", 1), ("findLast", 1),
    ("findLastIndex", 1), ("reverse", 0), ("toReversed", 0), ("slice", 2), ("subarray", 2),
    ("sort", 1), ("toSorted", 1), ("join", 1), ("toLocaleString", 0), ("indexOf", 1),
    ("lastIndexOf", 1), ("includes", 1)]

/-- The formats of arrays of numbers, with the bytes of an item. -/
def typedFormats : List (String × Nat) :=
  [("Uint8ClampedArray", 1), ("Int8Array", 1), ("Uint8Array", 1), ("Int16Array", 2),
    ("Uint16Array", 2), ("Int32Array", 4), ("Uint32Array", 4), ("BigInt64Array", 8),
    ("BigUint64Array", 8), ("Float16Array", 2), ("Float32Array", 4), ("Float64Array", 8)]

/-- Adds the arrays of numbers of one format. -/
def typedArray (parentProto parent : ObjectId) (name : String) (bytes : Nat)
    (objects : Array Object) : Array Object :=
  let owner := objects.size
  let objects := objects.push (bare .ordinary (some parentProto))
  let objects := constructor owner name 3 (.construct false owner) [] objects
  let self := global name objects
  let objects := objects.modify self fun o => { o with proto := some parent }
  let size := [("BYTES_PER_ELEMENT", Value.ofInt bytes)]
  fix owner size (fix self size objects)

/-- Buffers, arrays of numbers and views. -/
def withBinaryData (objects : Array Object) : Array Object :=
  let buffer (name : String) (statics : List Method) (names : List String)
      (ms : List (String × Nat)) (objects : Array Object) : Array Object :=
    let owner := objects.size
    let objects := newClass name 1 (.construct false) statics [] objects
    let objects := species (global name objects) objects
    let objects := getters owner (.refusing (name ++ " object expected")) names objects
    tagged owner name (methods owner (refusing name ms) objects)
  let objects := buffer "ArrayBuffer" [⟨"isView", 1, .never⟩]
    ["byteLength", "maxByteLength", "resizable", "detached"]
    [("resize", 1), ("slice", 2), ("transfer", 0), ("transferToFixedLength", 0)] objects
  let objects := buffer "SharedArrayBuffer" [] ["byteLength", "maxByteLength", "growable"]
    [("grow", 1), ("slice", 2)] objects
  let refuse := Builtin.refusing "not a TypedArray"
  let proto := objects.size
  let parent := proto + 1
  let objects := (objects.push (bare .ordinary (some object))).push
    ((builtin (.refusing "cannot be called") 0 "TypedArray" true).put (.name "prototype")
      (.data (.object proto) false false false))
  let objects := hide proto "constructor" (.object parent) objects
  let objects :=
    methods parent (alike (.refusing "not a constructor") [("from", 1), ("of", 0)]) objects
  let objects := species parent objects
  let objects :=
    getters proto refuse ["length", "buffer", "byteLength", "byteOffset"] objects
  let objects := methods proto (alike refuse typedMethods) objects
  let objects := secondName proto (.symbol .iterator) proto "values" objects
  let objects := secondName proto (.name "toString") array "toString" objects
  let objects :=
    getter proto (.symbol .toStringTag) Symbol.toStringTag.bracketed .other objects
  let objects :=
    typedFormats.foldl (fun objects (name, bytes) => typedArray proto parent name bytes objects)
      objects
  let owner := objects.size
  let numbers := ["Int8", "Uint8", "Int16", "Uint16", "Int32", "Uint32", "BigInt64", "BigUint64",
    "Float16", "Float32", "Float64"]
  let objects := newClass "DataView" 1 (.construct false) [] [] objects
  let objects := getters owner (.refusing "DataView object expected")
    ["buffer", "byteLength", "byteOffset"] objects
  tagged owner "DataView"
    (methods owner (refusing "DataView"
      (numbers.map (fun n => ("get" ++ n, 1)) ++ numbers.map fun n => ("set" ++ n, 2))) objects)

end Intrinsic

end HostView.Script
