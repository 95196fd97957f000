import HostView.Number.Places
import HostView.Number.Real
import HostView.Script.Library.Functions

/-!
# Functions about numbers and other primitive values

Conversions between primitive values, the methods that take a primitive value out of a box, and
functions about numbers, big integers and symbols.
-/

namespace HostView.Script

/-! ### Conversions -/

/-- The kind of a primitive value. -/
def Value.primitive? : Value → Option Primitive
  | .string _ => some .string
  | .int _ | .float _ => some .number
  | .bool _ => some .boolean
  | .symbol _ => some .symbol
  | .bigInt _ => some .bigInt
  | _ => none

/-- The primitive value of a kind that a value is, or that it boxes. -/
def unboxed (p : Primitive) (this : Value) : Routine Value := do
  let engine ← get
  let v :=
    match this with
    | .object o =>
      match (engine.object o).kind with
      | .boxed v => v
      | _ => this
    | v => v
  if v.primitive? = some p then return v else throw (.notPrimitive p)

/-- The text that shows a symbol. -/
def Symbol.shown (s : Symbol) : ScriptString :=
  (ScriptString.append "Symbol(" s.description).append ")"

/-- The text of any value, a symbol being shown by its description. -/
def shownText : Value → Routine ScriptString
  | .symbol s => return s.shown
  | v => textFor v

/-- The number of a value, big integers being rounded. -/
def roundedNumber (v : Value) : Routine Value := do
  match ← primitiveFor .number v with
  | .bigInt i => return .ofDouble (.ofInt i)
  | v => primitiveNumber v

/-- The big integer that a text writes: a decimal literal with any sign, or one in another base. -/
def Numeral.bigInteger? (s : String) : Option Int :=
  match Numeral.trim s.toList with
  | [] => some 0
  | '0' :: 'x' :: rest | '0' :: 'X' :: rest => (Numeral.inBase? 16 rest).map Int.ofNat
  | '0' :: 'o' :: rest | '0' :: 'O' :: rest => (Numeral.inBase? 8 rest).map Int.ofNat
  | '0' :: 'b' :: rest | '0' :: 'B' :: rest => (Numeral.inBase? 2 rest).map Int.ofNat
  | cs => Decimal.signed? cs

/-- The big integer of a text. -/
def textInteger (s : ScriptString) : Routine Int :=
  match s with
  | .text s =>
    match Numeral.bigInteger? s with
    | some i => return i
    | none => throw (.malformed "invalid BigInt literal")
  | .illFormed _ => throw (.malformed "invalid BigInt literal")

/-- The big integer of a value that is no number. -/
def bigIntegerFor (v : Value) : Routine Int := do
  match ← primitiveFor .number v with
  | .bool b => return b.toNat
  | .bigInt i => return i
  | .string s => textInteger s
  | _ => throw .noBigInt

/-- The big integer of a value, which may be a whole number. -/
def wholeNumber (v : Value) : Routine Value := do
  match ← primitiveFor .number v with
  | .bool b => return .bigInt b.toNat
  | .bigInt i => return .bigInt i
  | .string s => return .bigInt (← textInteger s)
  | v =>
    match v.number? with
    | none => throw .noBigInt
    | some x =>
      match x.toInt? with
      | some i => return .bigInt i
      | none =>
        if x.isFinite then throw (.undefinedAt "cannot convert to BigInt: not an integer")
        else throw (.undefinedAt "cannot convert NaN or Infinity to BigInt")

/-- A new symbol. -/
def newSymbol (description : Option ScriptString) : Routine Value :=
  modifyGet fun e =>
    (.symbol (.own e.nextSymbol description), { e with nextSymbol := e.nextSymbol + 1 })

/-- The well-formed text of a value. -/
def wellFormedText (v : Value) : Routine String := do
  match ← textFor v with
  | .text s => return s
  | .illFormed u => throw (.illFormedKey u.index)

/-- Converts the first argument to a primitive value, or makes the one that stands for none. -/
def convertTo : Primitive → List Value → Routine Value
  | .string, [] => return .string ""
  | .string, v :: _ => do return .string (← shownText v)
  | .number, [] => return .int 0
  | .number, v :: _ => roundedNumber v
  | .boolean, arguments => return .bool (arguments.headD .undefined).truthy
  | .symbol, [] | .symbol, .undefined :: _ => newSymbol none
  | .symbol, v :: _ => do newSymbol (some (← textFor v))
  | .bigInt, arguments => wholeNumber (arguments.headD .undefined)

/-- Makes a primitive value, or a box with one if an object is to be constructed. -/
def makePrimitive (p : Primitive) (purpose : Purpose) (arguments : List Value) : Routine Value := do
  match purpose.target? with
  | none => convertTo p arguments
  | some _ =>
    match p with
    | .symbol => throw (.notConstructor (some "Symbol"))
    | .bigInt => throw (.notConstructor (some "BigInt"))
    | .string => do
      let v ←
        match arguments with
        | [] => pure (.string "")
        | v :: _ => do pure (.string (← textFor v))
      box v
    | _ => do box (← convertTo p arguments)
where
  box (v : Value) : Routine Value := do
    let proto ← protoFor purpose (Intrinsic.ofPrimitive p)
    return .object (← newBox v proto)

/-! ### Numbers -/

/-- The double of a value. -/
def doubleFor (v : Value) : Routine Binary64 := do
  return ((← numberFor v).number?).getD .nan

/-- The place of a double in their order; a negative zero is before the other. -/
def rank (x : Binary64) : Int :=
  let size : Int := x.bits.toNat % 2 ^ 63
  if x.negative then -size - 1 else size

/-- The least or greatest of some doubles, which is no number if one of them is not. -/
def extreme (greatest : Bool) (xs : List Binary64) : Binary64 :=
  let start : Binary64 := if greatest then ⟨0xFFF0000000000000⟩ else ⟨0x7FF0000000000000⟩
  if xs.any Binary64.isNaN then .nan
  else xs.foldl (fun y x =>
    if (if greatest then rank y < rank x else rank x < rank y) then x else y) start

/-- The whole number in a base at the start of a text; without a base it is 16 after its mark, and
else 10. -/
def leadingInteger (base : Nat) (cs : List Char) : Binary64 :=
  let (negative, cs) :=
    match cs.dropWhile Numeral.isBlank with
    | '-' :: rest => (true, rest)
    | '+' :: rest => (false, rest)
    | cs => (false, cs)
  let digitsOf (base : Nat) (cs : List Char) : List Nat :=
    (cs.map fun c => (letterValue c).filter (· < base)).takeWhile Option.isSome |>.filterMap id
  let (base, digits) :=
    match cs with
    | '0' :: 'x' :: rest | '0' :: 'X' :: rest =>
      if base = 0 ∨ base = 16 then (16, digitsOf 16 rest) else (base, digitsOf base cs)
    | cs => if base = 0 then (10, digitsOf 10 cs) else (base, digitsOf base cs)
  if digits.isEmpty then .nan
  else
    let x := Binary64.ofNat (digits.foldl (fun n d => base * n + d) 0)
    if negative then x.neg else x
where
  letterValue (c : Char) : Option Nat :=
    if '0' ≤ c ∧ c ≤ '9' then some (c.toNat - '0'.toNat)
    else if 'a' ≤ c ∧ c ≤ 'z' then some (c.toNat - 'a'.toNat + 10)
    else if 'A' ≤ c ∧ c ≤ 'Z' then some (c.toNat - 'A'.toNat + 10)
    else none

/-- The number at the start of a text: the longest part that is a numeral. -/
def leadingNumber (cs : List Char) : Binary64 :=
  let longest (cs : List Char) : Option Binary64 :=
    (List.range (cs.length + 1)).reverse.findSome? fun n => Numeral.magnitude? (cs.take n)
  let read :=
    match cs.dropWhile Numeral.isBlank with
    | '-' :: rest => (longest rest).map Binary64.neg
    | '+' :: rest => longest rest
    | cs => longest cs
  read.getD .nan

/-- The characters of a text up to the first unit that is no text. -/
def charsFor (v : Value) : Routine (List Char) := do
  match ← textFor v with
  | .text s => return s.toList
  | .illFormed u => return (u.units.takeWhile (· < 0xD800)).map fun u => Char.ofNat u.toNat

/-- The base that an argument names. -/
def baseFor (v : Value) : Routine Nat := do
  match v with
  | .undefined => return 10
  | v => do
    let base ← integerFor v
    if 2 ≤ base ∧ base ≤ 36 then return base.toNat
    else throw (.undefinedAt "toString() radix argument must be between 2 and 36")

/-- A count of digits between two bounds; what is said otherwise begins with the name of the
function. -/
def digitsFor (opening : String) (least : Int) (v : Value) : Routine Nat := do
  let n ← integerFor v
  if least ≤ n ∧ n ≤ 100 then return n.toNat
  else
    throw (.undefinedAt
      (opening ++ " argument must be between " ++ Decimal.ofInt least ++ " and 100"))

/-- The text of a number in one of the forms that a method gives. -/
def NumeralForm.text (form : NumeralForm) (v : Value) (argument : Value) : Routine Value := do
  let x := v.number?.getD .nan
  let plain : Value := .string (.text (Notation.script.render x))
  match form with
  | .inBase => do
    let base ← baseFor argument
    match v with
    | .int i => return .string (.text (Places.integerInBase base i.toInt))
    | _ => return .string (.text (Places.render base x))
  | .local => return plain
  | .fixed => do
    let places ← digitsFor "toFixed() digits" 0 argument
    if x.isFinite && x.wholePart < 10 ^ 21 then
      return .string (.text (Places.signed x (Places.fixed places x)))
    else return plain
  | .exponential => do
    let n ← integerFor argument
    if !x.isFinite then return plain
    else if argument = .undefined then
      return .string (.text (Places.signed x (Places.exponential (Places.shortest x))))
    else do
      let places ← digitsFor "toExponential()" 0 (.ofInt n)
      return .string
        (.text (Places.signed x (Places.exponential (Places.significant (places + 1) x))))
  | .precise =>
    if argument = .undefined then return plain
    else do
      let n ← integerFor argument
      if !x.isFinite then return plain
      else do
        let count ← digitsFor "toPrecision()" 1 (.ofInt n)
        return .string (.text (Places.signed x (Places.precise count x)))

/-- Calls a function about numbers. -/
def NumberFunction.perform (f : NumberFunction) (this : Value) (arguments : List Value) :
    Routine Value := do
  let first := argument arguments 0
  let second := argument arguments 1
  let integer? := first.number?.bind Binary64.toInt?
  match f with
  | .isNaN => do return .bool (← doubleFor first).isNaN
  | .isFinite => do return .bool (← doubleFor first).isFinite
  | .isInteger => return .bool integer?.isSome
  | .isSafeInteger => return .bool (integer?.any fun i => i.natAbs < 2 ^ 53)
  | .isFiniteNumber => return .bool (first.number?.any Binary64.isFinite)
  | .isNotNumber => return .bool (first.number?.any Binary64.isNaN)
  | .parseInt => do
    let cs ← charsFor first
    let base := (← numberFor second).toWord
    return .ofDouble (if base ≠ 0 ∧ (base < 2 ∨ 36 < base) then .nan else leadingInteger base cs)
  | .parseFloat => do return .ofDouble (leadingNumber (← charsFor first))
  | .minimum => do return .ofDouble (extreme false (← arguments.mapM doubleFor))
  | .maximum => do return .ofDouble (extreme true (← arguments.mapM doubleFor))
  | .real f => do return .ofDouble (f.apply (← doubleFor first))
  | .power => do
    let x ← doubleFor first
    return .ofDouble (Real.power x (← doubleFor second))
  | .angle => do
    let y ← doubleFor first
    return .ofDouble (Real.lift₂ Float.atan2 y (← doubleFor second))
  | .distance => do
    match ← arguments.mapM doubleFor with
    | [] => return .int 0
    | x :: rest =>
      return .ofDouble (rest.foldl Real.hypotenuse (RealFunction.magnitude.apply x))
  | .product => do
    let a := (← numberFor first).toWord
    let b := (← numberFor second).toWord
    return .int (Int32.ofNat (a * b))
  | .leadingZeros => do
    let n := (← numberFor first).toWord
    return .ofInt (if n = 0 then 32 else 31 - n.log2)
  | .chance => return .float ⟨0x3FE0000000000000⟩
  | .isLockFree => return .bool ([1, 2, 4, 8].contains (← integerFor first))
  | .pause =>
    if first = .undefined || integer?.isSome then return .undefined
    else throw (.unfit "not an integral number")
  | .text form => do form.text (← unboxed .number this) first

/-! ### Big integers and symbols -/

/-- A count of binary digits. -/
def widthFor (v : Value) : Routine Nat := do
  let n ← integerFor v
  if 0 ≤ n ∧ n < 2 ^ 53 then return n.toNat else throw (.undefinedAt "invalid array index")

/-- An integer in so many binary digits. -/
def withinBits (signed : Bool) (width : Nat) (i : Int) : Int :=
  if (i.natAbs.log2 + 2 ≤ width) && (signed || 0 ≤ i) then i
  else if signed then i.bmod (2 ^ width)
  else i % (2 ^ width)

/-- Calls a function about big integers. -/
def BigIntFunction.perform (f : BigIntFunction) (this : Value) (arguments : List Value) :
    Routine Value := do
  let first := argument arguments 0
  match f with
  | .text => do
    match ← unboxed .bigInt this with
    | .bigInt i => return .string (.text (Places.integerInBase (← baseFor first) i))
    | _ => throw (.notPrimitive .bigInt)
  | .within signed => do
    let width ← widthFor first
    return .bigInt (withinBits signed width (← bigIntegerFor (argument arguments 1)))

/-- Calls a function about symbols. -/
def SymbolFunction.perform (f : SymbolFunction) (this : Value) (arguments : List Value) :
    Routine Value := do
  match f with
  | .description => do
    match ← unboxed .symbol this with
    | .symbol s => return optional (s.description?.map Value.string)
    | _ => return .undefined
  | .share => return .symbol (.shared (← textFor (argument arguments 0)))
  | .keyOf =>
    match argument arguments 0 with
    | .symbol (.shared key) => return .string key
    | .symbol _ => return .undefined
    | _ => throw (.notPrimitive .symbol)

end HostView.Script
