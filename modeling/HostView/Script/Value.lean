import HostView.Number.Binary64
import HostView.Text.Decimal
import HostView.Text.Units

/-!
# Script values and property keys

Scripts compute with primitive values and with objects, which are held by number. A property is
named by a string or by a symbol.
-/

namespace HostView.Script

/-- A symbol. -/
inductive Symbol where
  /-- The private symbol by which the bridge asks a proxy for the wrap behind it. -/
  | tag
  /-- A symbol under which the engine itself looks for a property. -/
  | wellKnown (name : String)
  /-- The one symbol of a key, which all scripts share. -/
  | shared (key : ScriptString)
  | own (serial : Nat) (description : Option ScriptString)
  deriving DecidableEq

namespace Symbol

/-- The symbol under which iteration is found. -/
def iterator : Symbol := .wellKnown "iterator"

/-- The symbol under which the conversion of an object to a primitive value is found. -/
def toPrimitive : Symbol := .wellKnown "toPrimitive"

/-- The symbol under which the name of the class of an object is found. -/
def toStringTag : Symbol := .wellKnown "toStringTag"

/-- The symbol under which a constructor names another that its methods use. -/
def species : Symbol := .wellKnown "species"

/-- The description of a symbol, if it has one. -/
def description? : Symbol → Option ScriptString
  | .tag => some "HostValue"
  | .wellKnown name => some (.text ("Symbol." ++ name))
  | .shared key => some key
  | .own _ description => description

/-- The description of a symbol; one that has none is described by nothing. -/
def description (s : Symbol) : ScriptString := s.description?.getD ""

/-- The name of a function that a property named by the symbol holds. -/
def bracketed (s : Symbol) : ScriptString :=
  match s.description? with
  | some d => (ScriptString.append "[" d).append "]"
  | none => ""

end Symbol

/-- The number of an object. -/
abbrev ObjectId := Nat

/-- A script value. Numbers are kept as 32-bit integers where the engine does so. -/
inductive Value where
  | undefined
  | null
  | bool (b : Bool)
  | int (i : Int32)
  | float (x : Binary64)
  | bigInt (i : Int)
  | string (s : ScriptString)
  | symbol (s : Symbol)
  | object (o : ObjectId)
  deriving DecidableEq

namespace Value

instance : Inhabited Value := ⟨.undefined⟩

/-- A whole number. -/
def ofInt (i : Int) : Value :=
  if -2 ^ 31 ≤ i ∧ i < 2 ^ 31 then .int (.ofInt i) else .float (.ofInt i)

/-- A number that comes from the host. Whole numbers of 32 bits become integers, both zeros alike.
-/
def ofReal (x : Binary64) : Value :=
  match x.toInt? with
  | some i => if -2 ^ 31 ≤ i ∧ i < 2 ^ 31 then .int (.ofInt i) else .float x
  | none => .float x

/-- A number that was computed. Whole numbers of 32 bits become integers, except a negative zero. -/
def ofDouble (x : Binary64) : Value :=
  if x.isZero && x.negative then .float x else ofReal x

/-- A number that a script writes. A negative zero and the least 32-bit integer are no integers.
-/
def ofLiteral (x : Binary64) : Value :=
  match x.toInt? with
  | some i =>
    if -2 ^ 31 < i ∧ i < 2 ^ 31 ∧ ¬(x.isZero ∧ x.negative) then .int (.ofInt i) else .float x
  | none => .float x

/-- The double that a number is. -/
def number? : Value → Option Binary64
  | .int i => some (.ofInt i.toInt)
  | .float x => some x
  | _ => none

/-- The truth value, if the value is one. -/
def bool? : Value → Option Bool
  | .bool b => some b
  | _ => none

/-- The object, if the value is one. -/
def object? : Value → Option ObjectId
  | .object o => some o
  | _ => none

/-- Neither `undefined` nor `null`. -/
def isPresent : Value → Bool
  | .undefined | .null => false
  | _ => true

/-- How a value counts where a truth value is needed. -/
def truthy : Value → Bool
  | .undefined | .null => false
  | .bool b => b
  | .int i => i != 0
  | .float x => !(x.isNaN || x.isZero)
  | .bigInt i => i != 0
  | .string s => !s.units.isEmpty
  | .symbol _ | .object _ => true

/-- The values are one and the same; numbers are compared as numbers. -/
def identical (a b : Value) : Bool :=
  match a.number?, b.number? with
  | some x, some y => x.eq y
  | none, none => a = b
  | _, _ => false

end Value

/-- The kinds of primitive values that have a constructor. -/
inductive Primitive where
  | string
  | number
  | boolean
  | symbol
  | bigInt
  deriving DecidableEq

/-- The word for a kind of primitive values. -/
def Primitive.render : Primitive → String
  | .string => "string"
  | .number => "number"
  | .boolean => "boolean"
  | .symbol => "symbol"
  | .bigInt => "bigint"

/-- The key of a property. -/
inductive Key where
  | string (s : ScriptString)
  | symbol (s : Symbol)
  deriving DecidableEq

namespace Key

/-- The key of a name. -/
def name (s : String) : Key := .string (.text s)

/-- A key as a value. -/
def value : Key → Value
  | .string s => .string s
  | .symbol s => .symbol s

/-- The key is a symbol. -/
def isSymbol : Key → Bool
  | .symbol _ => true
  | .string _ => false

/-- The name that a key is. -/
def string? : Key → Option ScriptString
  | .string s => some s
  | .symbol _ => none

/-- The key of an item. -/
def item (index : Nat) : Key := name (Decimal.ofNat index)

/-- The key of the length of arrays and strings. -/
def length : Key := name "length"

end Key

end HostView.Script
