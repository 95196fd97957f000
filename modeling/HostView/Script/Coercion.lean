import HostView.Number.Notation
import HostView.Number.Numeral
import HostView.Script.Access

/-!
# Values as texts, numbers and keys

Where a primitive value is needed, an object is asked for one: by its own conversion if it has one,
and otherwise by its `toString` and `valueOf` methods, in the order that suits what is needed. So
turning a value into a text, a number or a property key may call functions.
-/

namespace HostView.Script

/-- What a primitive value is needed for. -/
inductive Hint where
  | text
  | number
  /-- Either will do. -/
  | any

/-- The word that tells an object what a primitive value is needed for. -/
def Hint.render : Hint → String
  | .text => "string"
  | .number => "number"
  | .any => "default"

/-- The methods that are asked in turn. -/
def Hint.methods : Hint → String × String
  | .text => ("toString", "valueOf")
  | .number | .any => ("valueOf", "toString")

/-- What a method of an object gives, if it is a function and gives no object. -/
def primitiveBy (o : ObjectId) (method : String) : Routine (Option Value) := do
  let f ← getProperty o (.name method)
  if (← get).isFunction f then
    match ← callValue f (.object o) [] with
    | .object _ => return none
    | v => return some v
  else return none

/-- The value that an object gives by its methods. -/
def ordinaryPrimitiveOf (hint : Hint) (o : ObjectId) : Routine Value := do
  match ← primitiveBy o hint.methods.1 with
  | some v => return v
  | none =>
    match ← primitiveBy o hint.methods.2 with
    | some v => return v
    | none => throw .noPrimitive

/-- The value that stands for an object where a primitive value is needed. -/
def primitiveOf (hint : Hint) (o : ObjectId) : Routine Value := do
  let conversion ← getProperty o (.symbol .toPrimitive)
  if conversion.isPresent then
    match ← callValue conversion (.object o) [.string hint.render] with
    | .object _ => throw .noPrimitive
    | v => return v
  else ordinaryPrimitiveOf hint o

/-- A value that is no object, for any value. -/
def primitiveFor (hint : Hint) : Value → Routine Value
  | .object o => primitiveOf hint o
  | v => return v

/-- The text of a value that is no object. -/
def primitiveText : Value → Routine ScriptString
  | .undefined => return "undefined"
  | .null => return "null"
  | .bool b => return if b then "true" else "false"
  | .int i => return .text (Decimal.ofInt i.toInt)
  | .float x => return .text (Notation.script.render x)
  | .bigInt i => return .text (Decimal.ofInt i)
  | .string s => return s
  | .symbol _ => throw .symbolText
  | .object _ => throw .noPrimitive

/-- The text of a value. -/
def textFor (v : Value) : Routine ScriptString := do
  primitiveText (← primitiveFor .text v)

/-- The number of a value that is no object. -/
def primitiveNumber : Value → Routine Value
  | .undefined => return .float .nan
  | .null => return .int 0
  | .bool b => return .int (if b then 1 else 0)
  | .string (.text s) => return .ofLiteral (Numeral.value s)
  | .string (.illFormed _) => return .float .nan
  | .bigInt _ => throw .bigIntNumber
  | .symbol _ => throw .symbolNumber
  | .object _ => throw .noPrimitive
  | v => return v

/-- The number of a value. -/
def numberFor (v : Value) : Routine Value := do
  primitiveNumber (← primitiveFor .number v)

/-- The property key that a value is. -/
def keyFor (v : Value) : Routine Key := do
  match ← primitiveFor .text v with
  | .symbol s => return .symbol s
  | v => return .string (← primitiveText v)

/-- A number as a length: a fraction does not count, and what is no number, or less than zero, is
no length. -/
def Value.toLength (v : Value) : Nat :=
  match v.number? with
  | some x =>
    if x.isNaN || x.negative then 0
    else if x.isFinite then min x.wholePart (2 ^ 53 - 1)
    else 2 ^ 53 - 1
  | none => 0

/-- A number without its fraction; what is no number counts as zero, and what is beyond the range
of exact numbers as its bound. -/
def Value.toInteger (v : Value) : Int :=
  match v.number? with
  | some x =>
    let size : Nat :=
      if x.isNaN then 0 else if x.isFinite then min x.wholePart (2 ^ 53) else 2 ^ 53
    if x.negative then -size else size
  | none => 0

/-- The whole number of a value. -/
def integerFor (v : Value) : Routine Int := do
  return (← numberFor v).toInteger

/-- A number without its fraction, in 32 bits. -/
def Value.toWord (v : Value) : Nat :=
  match v.number? with
  | some x =>
    let whole : Int := if x.isFinite then x.wholePart else 0
    ((if x.negative then -whole else whole) % 2 ^ 32).toNat
  | none => 0

/-- How many items an object has. -/
def lengthOf (o : ObjectId) : Routine Nat := do
  return (← numberFor (← getProperty o .length)).toLength

/-- The item of an object at an index. -/
def itemOf (o : ObjectId) (index : Nat) : Routine Value := getProperty o (.item index)

end HostView.Script
