import HostView.Script.Intrinsics.Builder

/-!
# Primitive values

The constructors of strings, numbers, truth values, symbols and big integers, and the methods that
their prototypes hold.
-/

namespace HostView.Script

namespace Intrinsic

/-- The methods of strings that put them into a tag, whose name comes second and is followed by
that of an attribute. -/
def tagMethods : List Method :=
  [("anchor", "a", "name"), ("big", "big", ""), ("blink", "blink", ""), ("bold", "b", ""),
    ("fixed", "tt", ""), ("fontcolor", "font", "color"), ("fontsize", "font", "size"),
    ("italics", "i", ""), ("link", "a", "href"), ("small", "small", ""), ("strike", "strike", ""),
    ("sub", "sub", ""), ("sup", "sup", "")].map fun (name, tag, property) =>
      ⟨name, if property.isEmpty then 0 else 1, .string (.tagged tag property)⟩

/-- The methods of strings up to the one that takes blanks away at the end. -/
def stringMethods : List Method :=
  [⟨"at", 1, .string .item⟩, ⟨"charCodeAt", 1, .string .unitCode⟩, ⟨"charAt", 1, .string .unit⟩,
    ⟨"concat", 1, .string .concat⟩, ⟨"codePointAt", 1, .string .codePoint⟩,
    ⟨"isWellFormed", 0, .string .isWellFormed⟩, ⟨"toWellFormed", 0, .string .wellFormed⟩,
    ⟨"indexOf", 1, .string .indexOf⟩, ⟨"lastIndexOf", 1, .string .lastIndexOf⟩,
    ⟨"includes", 1, .string .includes⟩, ⟨"endsWith", 1, .string .endsWith⟩,
    ⟨"startsWith", 1, .string .startsWith⟩, ⟨"match", 1, .string (.seek false)⟩,
    ⟨"matchAll", 1, .string (.seek true)⟩, ⟨"search", 1, .string .search⟩,
    ⟨"split", 2, .string .split⟩, ⟨"substring", 2, .string .substring⟩,
    ⟨"substr", 2, .string .substr⟩, ⟨"slice", 2, .string .slice⟩, ⟨"repeat", 1, .string .repeated⟩,
    ⟨"replace", 2, .string .replace⟩, ⟨"replaceAll", 2, .string .replaceAll⟩,
    ⟨"padEnd", 1, .string (.pad false)⟩, ⟨"padStart", 1, .string (.pad true)⟩,
    ⟨"trim", 0, .string (.trim true true)⟩, ⟨"trimEnd", 0, .string (.trim false true)⟩]

/-- The methods of strings that follow. -/
def furtherStringMethods : List Method :=
  [⟨"toString", 0, .primitiveText .string⟩, ⟨"valueOf", 0, .primitiveValue .string⟩,
    ⟨"toLowerCase", 0, .string (.changeCase false)⟩,
    ⟨"toUpperCase", 0, .string (.changeCase true)⟩,
    ⟨"toLocaleLowerCase", 0, .string (.changeCase false)⟩,
    ⟨"toLocaleUpperCase", 0, .string (.changeCase true)⟩]

/-- The constructor and the methods of strings. -/
def withStrings (objects : Array Object) : Array Object :=
  let objects := constructor string "String" 1 (.convert .string)
    [⟨"fromCharCode", 1, .string .ofUnits⟩, ⟨"fromCodePoint", 1, .string .ofCharacters⟩,
      ⟨"raw", 1, .string .raw⟩] objects
  let objects := add string .length (.data (.int 0) false false true) objects
  let objects := methods string stringMethods objects
  let objects := secondName string (.name "trimRight") string "trimEnd" objects
  let objects := methods string [⟨"trimStart", 0, .string (.trim true false)⟩] objects
  let objects := secondName string (.name "trimLeft") string "trimStart" objects
  let objects := methods string furtherStringMethods objects
  let objects := symbolMethod string .iterator 0 (.string .iterate) objects
  methods string
    (tagMethods ++ [⟨"normalize", 0, .string .normalize⟩, ⟨"localeCompare", 1, .string .compare⟩])
    objects

/-- The constructor and the methods of numbers. -/
def withNumbers (objects : Array Object) : Array Object :=
  let text (name : String) (length : Nat) (form : NumeralForm) : Method :=
    ⟨name, length, .number (.text form)⟩
  let objects := methods number
    [text "toExponential" 1 .exponential, text "toFixed" 1 .fixed, text "toPrecision" 1 .precise,
      text "toString" 1 .inBase, text "toLocaleString" 0 .local,
      ⟨"valueOf", 0, .primitiveValue .number⟩] objects
  let objects := constructor number "Number" 1 (.convert .number) [] objects
  let self := global "Number" objects
  let objects := secondName self (.name "parseInt") globals "parseInt" objects
  let objects := secondName self (.name "parseFloat") globals "parseFloat" objects
  let objects := methods self
    [⟨"isNaN", 1, .number .isNotNumber⟩, ⟨"isFinite", 1, .number .isFiniteNumber⟩,
      ⟨"isInteger", 1, .number .isInteger⟩, ⟨"isSafeInteger", 1, .number .isSafeInteger⟩] objects
  fix self
    [("MAX_VALUE", .float ⟨0x7FEFFFFFFFFFFFFF⟩), ("MIN_VALUE", .float ⟨1⟩), ("NaN", .float .nan),
      ("NEGATIVE_INFINITY", .float ⟨0xFFF0000000000000⟩),
      ("POSITIVE_INFINITY", .float ⟨0x7FF0000000000000⟩), ("EPSILON", .float ⟨0x3CB0000000000000⟩),
      ("MAX_SAFE_INTEGER", .float ⟨0x433FFFFFFFFFFFFF⟩),
      ("MIN_SAFE_INTEGER", .float ⟨0xC33FFFFFFFFFFFFF⟩)] objects

/-- The methods by which a primitive value gives its text and itself. -/
def primitiveMethods (p : Primitive) : List Method :=
  [⟨"toString", 0, .primitiveText p⟩, ⟨"valueOf", 0, .primitiveValue p⟩]

/-- The constructor and the methods of truth values. -/
def withBooleans (objects : Array Object) : Array Object :=
  constructor boolean "Boolean" 1 (.convert .boolean) []
    (methods boolean (primitiveMethods .boolean) objects)

/-- The symbols under which the engine itself looks for properties. -/
def wellKnownSymbols : List String :=
  ["toPrimitive", "iterator", "match", "matchAll", "replace", "search", "split", "toStringTag",
    "isConcatSpreadable", "hasInstance", "species", "unscopables", "asyncIterator"]

/-- The constructor and the methods of symbols. -/
def withSymbols (objects : Array Object) : Array Object :=
  let objects := methods symbol (primitiveMethods .symbol) objects
  let n := objects.size
  let objects := (add symbol (.symbol .toPrimitive) (.data (.object n) false false true)
    objects).push (builtin (.primitiveValue .symbol) 1 Symbol.toPrimitive.bracketed false)
  let objects := tagged symbol "Symbol" objects
  let objects :=
    getter symbol (.name "description") "description" (.symbol .description) objects
  let objects := constructor symbol "Symbol" 0 (.convert .symbol)
    [⟨"for", 1, .symbol .share⟩, ⟨"keyFor", 1, .symbol .keyOf⟩] objects
  fix (global "Symbol" objects)
    (wellKnownSymbols.map fun name => (name, .symbol (.wellKnown name))) objects

/-- The constructor and the methods of big integers. -/
def withBigInts (objects : Array Object) : Array Object :=
  let objects := constructor bigInt "BigInt" 1 (.convert .bigInt)
    [⟨"asUintN", 2, .bigInt (.within false)⟩, ⟨"asIntN", 2, .bigInt (.within true)⟩] objects
  tagged bigInt "BigInt"
    (methods bigInt
      [⟨"toString", 0, .bigInt .text⟩, ⟨"valueOf", 0, .primitiveValue .bigInt⟩] objects)

end Intrinsic

end HostView.Script
