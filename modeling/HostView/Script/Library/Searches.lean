import HostView.Script.Library.Patterns

/-!
# Searches in strings

The methods of strings that look for something ask what they are to look for, if it can do so
itself, and otherwise look for its text.
-/

namespace HostView.Script

/-- The symbol under which something that is looked for answers to a method. -/
def searchSymbol : TextFunction → Symbol
  | .split => .wellKnown "split"
  | .search => .wellKnown "search"
  | .seek everywhere => .wellKnown (if everywhere then "matchAll" else "match")
  | _ => .wellKnown "replace"

/-- A value that counts as a pattern must be one that looks for everything. -/
def needEverywhere (v : Value) : Routine Unit := do
  if ← isPattern v then
    match ← readFrom v (.name "flags") with
    | .undefined | .null => throw .noSubject
    | flags => do
      if !hasFlag (← textFor flags).units 'g' then
        throw (.unfit "regexp must have the 'g' flag")

/-- What something that is looked for answers to a method by itself. -/
def answerOf (f : TextFunction) (sought : Value) (arguments : List Value) :
    Routine (Option Value) := do
  if !sought.isPresent then return none
  else do
    if f = .replaceAll then needEverywhere sought
    let method ← readFrom sought (.symbol (searchSymbol f))
    if f = .seek true then needEverywhere sought
    if method.isPresent then return some (← callValue method sought arguments) else return none

/-- Looks for a value as a pattern. -/
def seekPattern (f : TextFunction) (text : ScriptString) (sought : Value) : Routine Value := do
  let flags := if f = .seek true then [Value.string "g"] else []
  let pattern ← constructValue patternConstructor (sought :: flags)
  callValue (← readFrom pattern (.symbol (searchSymbol f))) pattern [.string text]

/-! ### Replacing -/

/-- The places where a part of a text is replaced, from a place on; one of an empty part is at each
place. The bound is on their number. -/
def placesOf (part units : List UInt16) : Nat → Nat → List Nat
  | 0, _ => []
  | n + 1, start =>
    match indexFrom? part units start with
    | some place =>
      if start ≤ units.length then place :: placesOf part units n (place + max part.length 1)
      else []
    | none => []

/-- A text with others in the place of a part, which are made for each place. -/
def replaceAt (units part : List UInt16) (other : Nat → Routine (List UInt16)) :
    Nat → List Nat → Routine (List UInt16)
  | passed, [] => return units.drop passed
  | passed, place :: rest => do
    let replacement ← other place
    return between units passed place ++ replacement ++
      (← replaceAt units part other (place + part.length) rest)

/-- A text in which another is replaced, once or everywhere. -/
def replacedText (everywhere : Bool) (text : ScriptString) (sought replacement : Value) :
    Routine Value := do
  let part ← textFor sought
  let isFunction := (← get).isFunction replacement
  let replacement ←
    if isFunction then pure replacement else do pure (.string (← textFor replacement))
  let units := text.units
  let places := placesOf part.units units (if everywhere then units.length + 1 else 1) 0
  let other (place : Nat) : Routine (List UInt16) := do
    if isFunction then
      let answer ← callValue replacement .undefined [.string part, .ofInt place, .string text]
      return (← textFor answer).units
    else do
      let r : Replaced := ⟨units, part.units, place, [], .undefined⟩
      r.substitute (← textFor replacement).units
  return unitsText (← replaceAt units part.units other 0 places)

/-- The parts of a text between separators. -/
def splitText (text : ScriptString) (separator limit : Value) : Routine Value := do
  let limit ← partLimit limit
  let part := (← textFor separator).units
  let units := text.units
  if limit = 0 then newItems []
  else if separator = .undefined then newItems [.string text]
  else newItems (((Units.splitOn part units).map unitsText).take limit)

/-! ### All methods -/

/-- Calls a method of strings that looks for something. -/
def TextFunction.lookFor (f : TextFunction) (this : Value) (arguments : List Value) :
    Routine Value := do
  let first := argument arguments 0
  let second := argument arguments 1
  if !this.isPresent then throw .noSubject
  let passed :=
    match f with
    | .search | .seek _ => [this]
    | _ => [this, second]
  match ← answerOf f first passed with
  | some v => return v
  | none => do
    let text ← textFor this
    match f with
    | .split => splitText text first second
    | .replace => replacedText false text first second
    | .replaceAll => replacedText true text first second
    | f => seekPattern f text first

/-- Calls a function about strings. -/
def TextFunction.perform (f : TextFunction) (this : Value) (arguments : List Value) :
    Routine Value := do
  match f with
  | .ofUnits => do
    let words ← arguments.mapM fun v => do return (← numberFor v).toWord
    return unitsText (words.map fun n => UInt16.ofNat n)
  | .ofCharacters => charactersText arguments
  | .raw => rawText (argument arguments 0) (arguments.drop 1)
  | .split | .replace | .replaceAll | .search | .seek _ => f.lookFor this arguments
  | f => do f.on (← subject this) arguments

end HostView.Script
