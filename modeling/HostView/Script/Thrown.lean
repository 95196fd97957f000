import HostView.Exposure.Fault
import HostView.Script.Value

/-!
# What scripts throw

A script throws a value of its own, or the engine throws an error with a class name and a message.
It builds messages in a buffer of 255 bytes, so the longer ones are cut, at a character, and end
at a null character. The name of a property is first cut by itself to 63 bytes, unless it is all
ASCII.
-/

namespace HostView.Script

/-- The two values without properties. -/
inductive Nullish where
  | undefined
  | null
  deriving DecidableEq

/-- The name of a value without properties. -/
def Nullish.render : Nullish → String
  | .undefined => "undefined"
  | .null => "null"

/-- What was thrown. -/
inductive Thrown where
  /-- A value that the script throws itself. -/
  | value (v : Value)
  /-- A live value refused a write. -/
  | refused (cause : Refusal)
  /-- A live value was asked for a key that is no text. -/
  | illFormedKey (index : Nat)
  /-- A global that is not there was used. -/
  | notDefined (name : String)
  /-- A property of `undefined` or `null` was read, by a computed key unless one is given. -/
  | cannotRead (key : Option Key) (of : Nullish)
  | cannotSet (key : Key) (of : Nullish)
  | noObject
  | notObject
  | notFunction
  /-- Something was to construct an object and cannot; it is named if it has a name. -/
  | notConstructor (name : Option ScriptString)
  | notPrototype
  /-- A constructor has no object from which what it constructs inherits. -/
  | noPrototype
  | notDescription
  /-- A method of primitive values of a kind was called on another value. -/
  | notPrimitive (p : Primitive)
  /-- A method of strings was called on `undefined` or `null`. -/
  | noString
  /-- A method of strings that looks for a pattern was called on `undefined` or `null`. -/
  | noSubject
  /-- A constructor was called without `new`. -/
  | needsNew (itself : Bool)
  /-- A property of functions was read that nobody may read. -/
  | forbiddenAccess
  /-- A proxy listed a key twice. -/
  | duplicateKey
  /-- A proxy listed something that is no key. -/
  | noKey
  /-- A proxy left a key out that its target must have. -/
  | missingKey
  /-- A proxy listed a key that its target cannot have. -/
  | foreignKey
  /-- What a proxy answered to a question does not fit its target. -/
  | inconsistent (question : String)
  /-- A proxy declined an assignment. -/
  | assignmentDeclined
  /-- A proxy declined a definition. -/
  | definitionDeclined
  /-- A proxy declined another prototype. -/
  | protoDeclined
  | inOperand
  | cannotDelete
  | readOnly (key : Key)
  | notExtensible
  | notConfigurable
  /-- An array was cut down to a property that may not be deleted. -/
  | cannotCut
  | noSetter
  /-- The object that was assigned to has a getter or setter in the way. -/
  | setterForbidden
  | circularProto
  | immutableProto
  | invalidGetter
  | invalidSetter
  | mixedDescriptor
  | closedRefused
  | bigIntInDocument
  | circular
  | symbolText
  | symbolNumber
  | bigIntNumber
  | noBigInt
  | noPrimitive
  | arrayLength
  /-- There is no item to begin with. -/
  | noItem
  /-- A function was given a value of the wrong kind. -/
  | unfit (message : String)
  /-- A function was given a value for which it is not defined. -/
  | undefinedAt (message : String)
  /-- A text that should write something else does not. -/
  | malformed (message : String)
  /-- An address has parts that stand for no text. -/
  | badAddress (message : String)
  | depth
  deriving DecidableEq

/-- The longest prefix of a text, in whole characters, that fits into some bytes and has no null
character. -/
def fitting (room : Nat) : List Char → List Char
  | [] => []
  | c :: rest =>
    if c = '\x00' ∨ room < c.utf8Size then [] else c :: fitting (room - c.utf8Size) rest

/-- A text as a buffer of some bytes holds it. -/
def cutTo (room : Nat) (s : String) : String :=
  String.ofList (fitting room s.toList)

/-- A message as the engine's buffer holds it. -/
def cut (s : String) : String := cutTo 255 s

/-- The text of a key in a message. -/
def Key.shown (k : Key) : String :=
  let name :=
    match (match k with
      | .string s => s
      | .symbol s => s.description) with
    | .text s => s
    | .illFormed _ => ""
  if name.toList.all (·.toNat < 128) then name else cutTo 63 name

namespace Thrown

/-- The class name of the error; a value that a script throws has none. -/
def className : Thrown → String
  | .value _ => ""
  | .notDefined _ => "ReferenceError"
  | .arrayLength | .undefinedAt _ | .depth => "RangeError"
  | .malformed _ => "SyntaxError"
  | .badAddress _ => "URIError"
  | _ => "TypeError"

/-- The message of the error; a value that a script throws has none. -/
def message : Thrown → String
  | .value _ => ""
  | .refused cause => cut cause.message
  | .illFormedKey index => cut (EngineCause.message (.illFormed index))
  | .notDefined name => cut (name ++ " is not defined")
  | .cannotRead none of => "cannot read property of " ++ of.render
  | .cannotRead (some key) of =>
    cut ("cannot read property '" ++ key.shown ++ "' of " ++ of.render)
  | .cannotSet key of => cut ("cannot set property '" ++ key.shown ++ "' of " ++ of.render)
  | .noObject => "Cannot convert undefined or null to object"
  | .notObject => "not an object"
  | .notFunction => "not a function"
  | .notConstructor none => "not a constructor"
  | .notConstructor (some name) => cut ((Key.string name).shown ++ " is not a constructor")
  | .notPrototype => "object prototype may only be an Object or null"
  | .noPrototype => "operand 'prototype' property is not an object"
  | .notDescription => "Property description must be an object"
  | .notPrimitive p => "not a " ++ p.render
  | .noString => "null or undefined are forbidden"
  | .noSubject => "cannot convert to object"
  | .forbiddenAccess => "invalid property access"
  | .needsNew itself => if itself then "constructor requires 'new'" else "must be called with new"
  | .duplicateKey => "proxy: duplicate property"
  | .noKey => "proxy: properties must be strings or symbols"
  | .missingKey => "proxy: target property must be present in proxy ownKeys"
  | .foreignKey =>
    "proxy: property not present in target were returned by non extensible proxy"
  | .inconsistent question => "proxy: inconsistent " ++ question
  | .assignmentDeclined => "proxy: cannot set property"
  | .definitionDeclined => "proxy: defineProperty exception"
  | .protoDeclined => "proxy: bad prototype"
  | .inOperand => "invalid 'in' operand"
  | .cannotDelete => "could not delete property"
  | .readOnly key => cut ("'" ++ key.shown ++ "' is read-only")
  | .notExtensible => "object is not extensible"
  | .notConfigurable => "property is not configurable"
  | .cannotCut => "not configurable"
  | .noSetter => "no setter for property"
  | .setterForbidden => "setter is forbidden"
  | .circularProto => "circular prototype chain"
  | .immutableProto =>
    "'Immutable prototype object 'Object.prototype' cannot have their prototype set'"
  | .invalidGetter => "Getter must be a function"
  | .invalidSetter => "Setter must be a function"
  | .mixedDescriptor =>
    "Invalid property descriptor. Cannot both specify accessors and a value or writable attribute"
  | .closedRefused => "proxy preventExtensions handler returned false"
  | .bigIntInDocument => "BigInt are forbidden in JSON.stringify"
  | .circular => "circular reference"
  | .symbolText => "cannot convert symbol to string"
  | .symbolNumber => "cannot convert symbol to number"
  | .bigIntNumber => "cannot convert bigint to number"
  | .noBigInt => "cannot convert to BigInt"
  | .noPrimitive => "toPrimitive"
  | .arrayLength => "invalid array length"
  | .noItem => "empty array"
  | .unfit message | .undefinedAt message | .malformed message | .badAddress message =>
    cut message
  | .depth => "Maximum call stack size exceeded"

end Thrown

end HostView.Script
