import HostView.Script.Library.Numbers
import HostView.Text.LetterCase
import HostView.Text.Normal

/-!
# Methods of strings

The methods of strings take the text of the value that they are called on, and count in code
units.
-/

namespace HostView.Script

/-- The text of the value that a method of strings is called on. -/
def subject (this : Value) : Routine ScriptString := do
  if this.isPresent then textFor this else throw .noString

/-- The units of a string as a value. -/
def unitsText (units : List UInt16) : Value := .string (.ofUnits units)

/-! ### Places -/

/-- The unit at a place. -/
def unitAt (units : List UInt16) (place : Int) : Option UInt16 :=
  if place < 0 then none else units[place.toNat]?

/-- The units from one place to before another. -/
def between (units : List UInt16) (start finish : Nat) : List UInt16 :=
  (units.take finish).drop start

/-- A place in a text, one below zero counting from the end; `absent` stands for no argument. -/
def boundOf (length absent : Nat) : Value → Routine Nat
  | .undefined => return absent
  | v => do
    let i ← integerFor v
    return min (if i < 0 then i + length else i).toNat length

/-- A place in a text, one below zero being the start; `absent` stands for no argument. -/
def cappedOf (length absent : Nat) : Value → Routine Nat
  | .undefined => return absent
  | v => do return min (← integerFor v).toNat length

/-- The number that an optional place is, -1 if it is none. -/
def placeValue (place : Option Nat) : Value := .ofInt ((place.map Int.ofNat).getD (-1))

/-! ### Searches -/

/-- The value counts as a pattern. -/
def isPattern : Value → Routine Bool
  | .object o => do
    match ← getProperty o (.symbol (.wellKnown "match")) with
    | .undefined =>
      match (← getObject o).kind with
      | .pattern _ => return true
      | _ => return false
    | v => return v.truthy
  | _ => return false

/-- The units of the text of a value that counts as no pattern. -/
def plainPart (v : Value) : Routine (List UInt16) := do
  if ← isPattern v then throw (.unfit "regexp not supported") else return (← textFor v).units

/-- Where some units first stand in others, from a place on. -/
def indexFrom? (part units : List UInt16) (start : Nat) : Option Nat :=
  (Units.indexOf? part (units.drop start)).map (· + start)

/-- The place up to which a search that goes backward looks for a part. -/
def lastPlaceFor (length part : Nat) : Value → Routine Nat
  | .undefined => return length - part
  | v => do
    let x ← doubleFor v
    if x.isNaN then return length - part
    else return min (Value.float x).toInteger.toNat (length - part)

/-! ### New texts -/

/-- Units without the blanks at their ends. -/
def trimmed (start finish : Bool) (units : List UInt16) : List UInt16 :=
  let isBlank (u : UInt16) : Bool := Numeral.isBlank (Char.ofNat u.toNat)
  let units := if start then units.dropWhile isBlank else units
  if finish then (units.reverse.dropWhile isBlank).reverse else units

/-- The filling of the given length. -/
def filling (filler : List UInt16) (length : Nat) : List UInt16 :=
  if filler.isEmpty then []
  else ((List.replicate (length / filler.length + 1) filler).flatten).take length

/-- The greatest length of a string. -/
def textLimit : Nat := 2 ^ 30 - 1

/-- The text with a filling before or after it, up to a length. -/
def padded (start : Bool) (units : List UInt16) (length filler : Value) :
    Routine (List UInt16) := do
  let length := (← integerFor length).toNat
  if length ≤ units.length then return units
  else do
    let filler ←
      match filler with
      | .undefined => pure [0x20]
      | v => do pure (← textFor v).units
    if filler.isEmpty then return units
    else if textLimit < length then throw (.undefinedAt "invalid string length")
    else
      let fill := filling filler (length - units.length)
      return if start then fill ++ units else units ++ fill

/-- The text repeated. -/
def repeatedText (units : List UInt16) (times : Int) : Routine Value :=
  if times < 0 ∨ 2 ^ 31 ≤ times then throw (.undefinedAt "invalid repeat count")
  else if textLimit < units.length * times.toNat then throw (.undefinedAt "invalid string length")
  else return unitsText (if units.isEmpty then [] else (List.replicate times.toNat units).flatten)

/-- The text inside a tag, which may have a property. -/
def taggedText (tag property : String) (s : ScriptString) (v : Value) : Routine Value := do
  let close := (ScriptString.append ">" s).append (.text ("</" ++ tag ++ ">"))
  if property.isEmpty then return .string (ScriptString.append (.text ("<" ++ tag)) close)
  else
    let quoted := (← textFor v).units.flatMap fun u =>
      if u = 0x22 then Units.ofString "&quot;" else [u]
    return .string (((ScriptString.append (.text ("<" ++ tag ++ " " ++ property ++ "=\""))
      (.ofUnits quoted)).append "\"").append close)

/-- A text in the normal form of the given name. -/
def normalText (units : List UInt16) (name : Value) : Routine Value := do
  let form ←
    match name with
    | .undefined => pure "NFC"
    | v => do
      match ← textFor v with
      | .text s => pure s
      | .illFormed _ => pure ""
  match Normal.Form.ofName? form with
  | some form => return unitsText (Units.ofPoints (Normal.normalize form (Units.points units)))
  | none => throw (.undefinedAt "bad normalization form")

/-- The characters of a text in the form in which texts are compared. -/
def comparable (s : ScriptString) : List Nat :=
  Normal.normalize ⟨false, true⟩ (Units.points s.units)

/-- The text of characters of the given numbers. -/
def charactersText (arguments : List Value) : Routine Value := do
  let points ← arguments.mapM fun v => do
    match (Value.float (← doubleFor v)).integer? with
    | some i =>
      if 0 ≤ i ∧ i ≤ 0x10FFFF then return i.toNat else throw (.undefinedAt "invalid code point")
    | none => throw (.undefinedAt "invalid code point")
  return unitsText (Units.ofPoints points)

/-- The pieces of a template with the arguments between them. -/
def rawText (template : Value) (arguments : List Value) : Routine Value := do
  let cooked ← toObject template
  let raw ← toObject (← getProperty cooked (.name "raw"))
  let length ← lengthOf raw
  let text ← (List.range length).foldlM (fun (text : ScriptString) i => do
    let text := text.append (← textFor (← itemOf raw i))
    match arguments[i]? with
    | some v => if i + 1 < length then return text.append (← textFor v) else return text
    | none => return text) ""
  return .string text

/-! ### All methods -/

/-- Calls a method of strings on a text. -/
def TextFunction.on (f : TextFunction) (s : ScriptString) (arguments : List Value) :
    Routine Value := do
  let units := s.units
  let length := units.length
  let first := argument arguments 0
  let second := argument arguments 1
  match f with
  | .item => do
    let i ← integerFor first
    return ((unitAt units (if i < 0 then i + length else i)).map fun u => unitsText [u]).getD
      .undefined
  | .unit => do return unitsText (unitAt units (← integerFor first)).toList
  | .unitCode => do
    match unitAt units (← integerFor first) with
    | some u => return .ofInt u.toNat
    | none => return .float .nan
  | .codePoint => do
    let i ← integerFor first
    let rest := if i < 0 then [] else units.drop i.toNat
    return (((Units.points (rest.take 2)).head?).map fun n => Value.ofInt n).getD .undefined
  | .concat => do
    let texts ← arguments.mapM textFor
    return .string (texts.foldl ScriptString.append s)
  | .includes => do
    let part ← plainPart first
    return .bool (indexFrom? part units (← cappedOf length 0 second)).isSome
  | .startsWith => do
    let part ← plainPart first
    return .bool (part.isPrefixOf (units.drop (← cappedOf length 0 second)))
  | .endsWith => do
    let part ← plainPart first
    return .bool (part.isSuffixOf (units.take (← cappedOf length length second)))
  | .indexOf => do
    let part := (← textFor first).units
    return placeValue (indexFrom? part units (← cappedOf length 0 second))
  | .lastIndexOf => do
    let part := (← textFor first).units
    let place ← lastPlaceFor length part.length second
    return placeValue (Units.lastIndexOf? part (units.take (place + part.length)))
  | .slice => do
    let start ← boundOf length 0 first
    return unitsText (between units start (← boundOf length length second))
  | .substring => do
    let a ← cappedOf length 0 first
    let b ← cappedOf length length second
    return unitsText (between units (min a b) (max a b))
  | .substr => do
    let start ← boundOf length 0 first
    let count ← cappedOf (length - start) (length - start) second
    return unitsText ((units.drop start).take count)
  | .repeated => do repeatedText units (← integerFor first)
  | .trim start finish => return unitsText (trimmed start finish units)
  | .pad start => do return unitsText (← padded start units first second)
  | .changeCase upper =>
    return unitsText (if upper then LetterCase.upperText units else LetterCase.lowerText units)
  | .isWellFormed =>
    match s with
    | .text _ => return .bool true
    | .illFormed _ => return .bool false
  | .wellFormed => return unitsText (Units.mended units)
  | .normalize => normalText units first
  | .compare => do
    let a := comparable s
    let b := comparable (← textFor first)
    return .ofInt (if a = b then 0 else if a.lex b then -1 else 1)
  | .tagged tag property => taggedText tag property s first
  | .iterate =>
    return .object (← newObject
      ⟨.iterator (.characters units), some Intrinsic.textIterator, true, []⟩)
  | _ => return .string s

end HostView.Script
