import HostView.Number.Real
import HostView.Script.Syntax
import HostView.Script.Value

/-!
# The functions of the engine

The functions that are there from the start, told apart by what they do. Those that need something
which scripts cannot make are known only by how they refuse.
-/

namespace HostView.Script

/-- The methods that every object inherits, and the functions about objects. -/
inductive ObjectFunction where
  /-- The text that names the class of an object. -/
  | text
  /-- The text that the `toString` method gives. -/
  | localText
  /-- The value as an object. -/
  | self
  | hasOwn
  | isPrototypeOf
  | isEnumerable
  /-- Adds a getter or setter. -/
  | addAccessor (setter : Bool)
  /-- The getter or setter that a property has. -/
  | findAccessor (setter : Bool)
  | readProto
  | replaceProto
  /-- Makes the argument an object, or a new object of nothing. -/
  | make
  /-- Copies the members of the other arguments to the first. -/
  | assign
  | integrity (order : Integrity)
  | protoOf
  | withProto
  /-- An object that inherits from the argument. -/
  | derive
  | define
  | defineAll
  | describe
  | describeAll
  | same
  | hasOwnNamed
  /-- All names or all symbols of an object. -/
  | ownNames
  | ownSymbols
  /-- The names, the values or both of the enumerable properties. -/
  | names
  | values
  | entries
  deriving DecidableEq

/-- The functions that do to an object what an expression does. -/
inductive ReflectFunction where
  | apply
  | construct
  | define
  | delete
  | read
  | describe
  | protoOf
  | has
  | isExtensible
  | keys
  /-- Takes no new properties from then on. -/
  | close
  | write
  | setProto
  deriving DecidableEq

/-- The methods of functions. -/
inductive CallFunction where
  | text
  /-- Calls the function on the first argument with the others. -/
  | call
  /-- Calls the function on the first argument with a list of others. -/
  | apply
  /-- A function that is called on the argument. -/
  | bind
  | hasInstance
  deriving DecidableEq

/-- What is given of each member of a list. -/
inductive MemberPart where
  | key
  | value
  | entry
  deriving DecidableEq

/-- The ways to call a function for each item. -/
inductive Visit where
  /-- Until it gives no truth. -/
  | every
  /-- Until it gives truth. -/
  | some
  | forEach
  /-- For what it gives. -/
  | map
  /-- For those for which it gives truth. -/
  | filter
  deriving DecidableEq

/-- The methods of arrays, which work on any object with a length. -/
inductive SequenceFunction where
  | text
  | localText
  | join
  | item
  /-- A copy with another item at a place. -/
  | replaced
  | includes
  | indexOf
  | lastIndexOf
  | pop
  | push
  | shift
  | unshift
  | reverse
  | reversed
  | slice
  | splice
  | spliced
  | concat
  | fill
  /-- Copies items to another place. -/
  | copyWithin
  | flat
  /-- The items that a function gives for each item. -/
  | flatMap
  | visit (v : Visit)
  /-- Looks for an item for which a function gives truth, from the end if so wanted, and gives it or
  its place. -/
  | find (last place : Bool)
  /-- Calls the argument for each item with what it gave for the one before. -/
  | reduce (last : Bool)
  /-- Orders the items, by the argument if there is one. -/
  | sort
  | sorted
  | iterate (part : MemberPart)
  | make
  /-- An array of the arguments. -/
  | of
  /-- An array of the items of the argument. -/
  | ofItems
  | isArray
  deriving DecidableEq

/-- The classes of iterators. -/
inductive IteratorClass where
  | list
  | text
  | pattern
  /-- Those that are made of others. -/
  | stage
  /-- Those that stand before others. -/
  | wrap
  deriving DecidableEq

/-- The name of a class of iterators. -/
def IteratorClass.render : IteratorClass → String
  | .list => "Array Iterator"
  | .text => "String Iterator"
  | .pattern => "RegExp String Iterator"
  | .stage => "Iterator Helper"
  | .wrap => "Iterator Wrap"

/-- The methods of iterators. -/
inductive IteratorFunction where
  /-- The next member of an iterator of a class. -/
  | next (c : IteratorClass)
  /-- The iterator itself. -/
  | self
  /-- Ends an iterator of a class before its time. -/
  | close (c : IteratorClass)
  | visit (v : Visit)
  | find
  | reduce
  /-- The first members only. -/
  | take
  /-- All but the first members. -/
  | drop
  | flatMap
  | toArray
  /-- An iterator over a value. -/
  | ofValue
  | make
  /-- The property of iterators that names their class, and its assignment. -/
  | tag
  | setTag
  deriving DecidableEq

/-- The methods of strings. -/
inductive TextFunction where
  | item
  | unit
  | unitCode
  | codePoint
  | concat
  | includes
  | indexOf
  | lastIndexOf
  | startsWith
  | endsWith
  | slice
  | substring
  | substr
  | repeated
  | replace
  | replaceAll
  | trim (start finish : Bool)
  /-- Blanks before or after the text up to a length. -/
  | pad (start : Bool)
  | split
  | search
  /-- Looks for a pattern, everywhere if so wanted. -/
  | seek (everywhere : Bool)
  | changeCase (upper : Bool)
  | isWellFormed
  | wellFormed
  | normalize
  | compare
  /-- The text inside a tag, with the argument as attribute if one is named. -/
  | tagged (tag property : String)
  /-- An iterator over the characters. -/
  | iterate
  /-- The text of code units. -/
  | ofUnits
  /-- The text of characters. -/
  | ofCharacters
  /-- The text of a template as it is written. -/
  | raw
  deriving DecidableEq

/-- The methods of patterns. -/
inductive PatternFunction where
  | make
  /-- Makes a pattern another one. -/
  | remake
  | exec
  | test
  | text
  | source
  | flags
  /-- A flag is set. -/
  | flag (letter : Char)
  | find
  | findAll
  | replace
  | search
  | split
  deriving DecidableEq

/-- The functions about documents. -/
inductive DocumentFunction where
  | parse
  | write
  deriving DecidableEq

/-- The functions that write text so that it fits into an address, or read it back; a component of
an address has no marks that structure it. -/
inductive AddressFunction where
  | encode (component : Bool)
  | decode (component : Bool)
  | escape
  | unescape
  deriving DecidableEq

/-- The functions about promises. What follows on a promise comes after every script, so that no
script sees it. -/
inductive PromiseFunction where
  /-- Makes a promise with the prototype of the given number. -/
  | make (proto : ObjectId)
  /-- Takes the functions that keep and break a promise. -/
  | take
  | keep
  | fail
  /-- A promise that is kept with the argument. -/
  | kept
  /-- A promise that is broken with the argument. -/
  | broken
  /-- A promise of what a function gives. -/
  | attempt
  /-- A promise of the members of the argument. -/
  | gather
  /-- A promise with the functions that keep and break it. -/
  | parts
  | followUp
  | onFailure
  | onEnd
  /-- Promises what nobody waits for. -/
  | later
  deriving DecidableEq

/-- The functions about dates that need no date. -/
inductive DateFunction where
  /-- Makes a date with the prototype of the given number, or tells what time it is. -/
  | make (proto : ObjectId)
  | now
  | toPrimitive
  | document
  /-- The time that a text writes. -/
  | parse
  /-- The time of a date and a time of day. -/
  | ofParts
  deriving DecidableEq

/-- The forms in which the text of a number is given. -/
inductive NumeralForm where
  | inBase
  | local
  /-- With so many places. -/
  | fixed
  | exponential
  /-- With so many digits. -/
  | precise
  deriving DecidableEq

/-- The functions about numbers. -/
inductive NumberFunction where
  | isNaN
  | isFinite
  /-- Tests that the argument itself is a number of a kind. -/
  | isInteger
  | isSafeInteger
  | isFiniteNumber
  | isNotNumber
  | parseInt
  | parseFloat
  | minimum
  | maximum
  | real (f : RealFunction)
  | power
  /-- The angle of a point seen from the origin. -/
  | angle
  /-- The distance of a point from the origin. -/
  | distance
  /-- The product in 32 bits. -/
  | product
  /-- The argument as a whole number of 32 bits: the leading zeros of its binary form. -/
  | leadingZeros
  /-- A number between zero and one. -/
  | chance
  /-- A number of bytes can change all at once. -/
  | isLockFree
  /-- Pauses for as many steps as the argument says. -/
  | pause
  | text (form : NumeralForm)
  deriving DecidableEq

/-- The functions about big integers. -/
inductive BigIntFunction where
  | text
  /-- The integer in so many binary digits. -/
  | within (signed : Bool)
  deriving DecidableEq

/-- The functions about symbols. -/
inductive SymbolFunction where
  | description
  /-- The symbol that all scripts share under a key. -/
  | share
  /-- The key of a shared symbol. -/
  | keyOf
  deriving DecidableEq

/-- The functions of the engine. -/
inductive Builtin where
  | object (f : ObjectFunction)
  | reflect (f : ReflectFunction)
  | function (f : CallFunction)
  | sequence (f : SequenceFunction)
  | iterator (f : IteratorFunction)
  | string (f : TextFunction)
  | pattern (f : PatternFunction)
  | number (f : NumberFunction)
  | bigInt (f : BigIntFunction)
  | symbol (f : SymbolFunction)
  | document (f : DocumentFunction)
  | address (f : AddressFunction)
  | date (f : DateFunction)
  | promise (f : PromiseFunction)
  | errorText
  /-- The text of a primitive value, or of the one in a box. -/
  | primitiveText (p : Primitive)
  /-- A primitive value, or the one in a box. -/
  | primitiveValue (p : Primitive)
  /-- The conversion to a primitive value, or to a box with one. -/
  | convert (p : Primitive)
  /-- The value itself. -/
  | self
  | makeFunction
  /-- Makes an error with the prototype of the given number; one of several others if so wanted. -/
  | makeError (proto : ObjectId) (several : Bool)
  /-- Marks the argument with the place of the call. -/
  | markPlace
  /-- Makes a proxy, alone or with a function that ends it. -/
  | makeProxy (revocable : Bool)
  /-- Constructs an object of which no more is known; it cannot be called without `new`, which the
  constructor itself may say. -/
  | construct (itself : Bool) (proto : ObjectId)
  /-- Refuses every call. -/
  | forbidden
  /-- Refuses every call, with a message. -/
  | refusing (message : String)
  /-- A function that refuses to go on unless the argument at an index is a function. -/
  | functionOnly (index : Nat)
  /-- Groups the items of the first argument by what the second gives for them. -/
  | group
  /-- Makes an object of pairs of keys and values. -/
  | ofEntries
  /-- A test that no value passes. -/
  | never
  /-- Runs a text as a script. -/
  | evaluate
  /-- A function of which no more is known than that it can be called. -/
  | other
  deriving DecidableEq

end HostView.Script
