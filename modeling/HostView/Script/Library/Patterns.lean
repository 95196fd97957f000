import HostView.Pattern.Reader
import HostView.Pattern.Search
import HostView.Script.Library.Iteration
import HostView.Script.Library.Substitution

/-!
# Methods of patterns

A pattern looks for what it describes in a text, and keeps the place where its next search is to
begin if it is to find more than the first. The methods that do more than one search use whatever
`exec` method the pattern has.
-/

namespace HostView.Script

/-! ### Making patterns -/

/-- The pattern that an object is. -/
def patternIn? (v : Value) : Routine (Option Pattern) := do
  match v with
  | .object o =>
    match (← getObject o).kind with
    | .pattern p => return some p
    | _ => return none
  | _ => return none

/-- The object and the pattern that a value must be. -/
def needPattern (v : Value) : Routine (ObjectId × Pattern) := do
  match v, ← patternIn? v with
  | .object o, some p => return (o, p)
  | _, _ => throw (.unfit "RegExp object expected")

/-- The flags that a value names. -/
def flagsFor (v : Value) : Routine Pattern.Flags := do
  match v with
  | .undefined => return .none
  | v =>
    match ← textFor v with
    | .text s =>
      match Pattern.Flags.ofText? s with
      | some flags => return flags
      | none => throw (.malformed "invalid regular expression flags")
    | .illFormed _ => throw (.malformed "invalid regular expression flags")

/-- The pattern of a text under flags. -/
def compilePattern (source : ScriptString) (flags : Value) : Routine Pattern := do
  match Pattern.ofText source (← flagsFor flags) with
  | .ok p => return p
  | .error fault => throw (.malformed fault.message)

/-- The text of a pattern that is to be made of a value. -/
def sourceFor : Value → Routine ScriptString
  | .undefined => return ""
  | v => textFor v

/-- The key of the place where the next search of a pattern begins. -/
def lastIndex : Key := .name "lastIndex"

/-- A new object for a pattern. -/
def newPattern (proto : ObjectId) (p : Pattern) : Routine Value := do
  return .object (← newObject
    ⟨.pattern p, some proto, true, [(lastIndex, .data (.int 0) true false false)]⟩)

/-- The pattern of a value that is a pattern, or else counts as one if `isLike` says so, or is its
text. -/
def patternOf (isLike : Bool) (v flags : Value) : Routine Pattern := do
  match ← patternIn? v with
  | some p => if flags = .undefined then return p else compilePattern p.source flags
  | none =>
    if isLike then
      let source ← readFrom v (.name "source")
      let flags ← if flags = .undefined then readFrom v (.name "flags") else pure flags
      compilePattern (← sourceFor source) flags
    else compilePattern (← sourceFor v) flags

/-- Makes a pattern. Without `new`, what is made by the same constructor stays as it is. -/
def makePattern (self : ObjectId) (purpose : Purpose) (v flags : Value) : Routine Value := do
  let isLike ← isPattern v
  let isKept ←
    if purpose.target?.isNone && isLike && flags = .undefined then do
      pure (decide ((← readFrom v (.name "constructor")) = .object self))
    else pure false
  if isKept then return v
  else do
    let p ← patternOf isLike v flags
    newPattern (← protoFor purpose Intrinsic.pattern) p

/-- Makes a pattern another one. -/
def remakePattern (this v flags : Value) : Routine Value := do
  let (o, _) ← needPattern this
  let p ←
    match ← patternIn? v with
    | some p => if flags = .undefined then pure p else throw (.unfit "flags must be undefined")
    | none => do compilePattern (← sourceFor v) flags
  modifyObject o fun object => { object with kind := .pattern p }
  setProperty o lastIndex (.int 0)
  return this

/-! ### What a pattern tells of itself -/

/-- The text of a pattern as it is written between slashes; `inSet` tells whether brackets are
open. -/
def slashed (inSet : Bool) : List UInt16 → List UInt16
  | [] => []
  | [u] => if u = 0x2F && !inSet then [0x5C, 0x2F] else lineEnd u
  | u :: v :: rest =>
    if u = 0x5C then u :: v :: slashed inSet rest
    else if u = 0x5D then u :: slashed false (v :: rest)
    else if u = 0x5B then
      if !inSet && v = 0x5D then u :: v :: slashed true rest else u :: slashed true (v :: rest)
    else if u = 0x2F && !inSet then 0x5C :: u :: slashed inSet (v :: rest)
    else lineEnd u ++ slashed inSet (v :: rest)
where
  lineEnd (u : UInt16) : List UInt16 :=
    if u = 0xA then [0x5C, 0x6E] else if u = 0xD then [0x5C, 0x72] else [u]

/-- The text of a pattern; that of all patterns is the empty one. -/
def patternSource (this : Value) : Routine Value := do
  let o ← needObject this
  if o = Intrinsic.pattern then return .string "(?:)"
  else do
    let (_, p) ← needPattern this
    let units := p.source.units
    return if units.isEmpty then .string "(?:)" else unitsText (slashed false units)

/-- The properties that tell the flags of a pattern, with the letters of these. -/
def flagNames : List (String × Char) :=
  [("hasIndices", 'd'), ("global", 'g'), ("ignoreCase", 'i'), ("multiline", 'm'), ("dotAll", 's'),
    ("unicode", 'u'), ("unicodeSets", 'v'), ("sticky", 'y')]

/-- The letters of the flags that are set, as the properties of a value tell. -/
def patternFlags (this : Value) : Routine Value := do
  let o ← needObject this
  let letters ← flagNames.filterMapM fun (name, letter) => do
    if (← getProperty o (.name name)).truthy then return some letter else return none
  return .string (.text (String.ofList letters))

/-- The text of the flags of a value. -/
def flagsOf (o : ObjectId) : Routine (List UInt16) := do
  return (← textFor (← getProperty o (.name "flags"))).units

/-- Flags have a letter. -/
def hasFlag (flags : List UInt16) (letter : Char) : Bool :=
  flags.contains (UInt16.ofNat letter.toNat)

/-- Flags say that characters count, not units. -/
def countsCharacters (flags : List UInt16) : Bool := hasFlag flags 'u' || hasFlag flags 'v'

/-! ### One search -/

/-- The part of a text between two places. -/
def partText (units : List UInt16) (part : Option (Nat × Nat)) : Value :=
  match part with
  | some (a, b) => unitsText (between units a b)
  | none => .undefined

/-- The two places of a part. -/
def partPlaces (part : Option (Nat × Nat)) : Routine Value :=
  match part with
  | some (a, b) => newItems [.ofInt a, .ofInt b]
  | none => return .undefined

/-- An object of the parts that have names, or nothing if none has. -/
def namedParts (p : Pattern) (values : List Value) : Routine Value := do
  if p.names.isEmpty then return .undefined
  else do
    let o ← newObject ⟨.ordinary, none, true, []⟩
    for (index, name) in p.names do
      defineMember o (.string name) (argument values index)
    return .object o

/-- What is told of a find: the parts that the pattern remembers, and where the first begins. -/
def newFind (p : Pattern) (text : ScriptString) (parts : List (Option (Nat × Nat))) :
    Routine Value := do
  let values := parts.map (partText text.units)
  let find ← newArray values
  defineMember find (.name "groups") (← namedParts p values)
  let place := (parts.head?.join.map (·.1)).getD 0
  defineMember find (.name "index") (.ofInt place)
  defineMember find (.name "input") (.string text)
  if p.flags.indices then
    let places ← parts.mapM partPlaces
    let indices ← newArray places
    defineMember indices (.name "groups") (← namedParts p places)
    defineMember find (.name "indices") (.object indices)
  return .object find

/-- Looks for a pattern in a text. -/
def execPattern (this v : Value) : Routine Value := do
  let (o, p) ← needPattern this
  let text ← textFor v
  let last := (← numberFor (← getProperty o lastIndex)).toLength
  let continues := p.flags.everywhere || p.flags.sticky
  let start := if continues then last else 0
  let units := text.units
  match if units.length < start then none else Pattern.search p units start with
  | none => do
    if continues then setProperty o lastIndex (.int 0)
    return .null
  | some parts => do
    if continues then setProperty o lastIndex (.ofInt ((parts.head?.join.map (·.2)).getD 0))
    newFind p text parts

/-- Looks for a pattern in a text as the `exec` method does that the pattern has. -/
def execOn (pattern text : Value) : Routine (Option ObjectId) := do
  let method ← readFrom pattern (.name "exec")
  let find ←
    if (← get).isFunction method then callValue method pattern [text]
    else execPattern pattern text
  match find with
  | .object find => return some find
  | .null => return none
  | _ => throw (.unfit "RegExp exec method must return an object or null")

/-- The text that was found. -/
def foundText (find : ObjectId) : Routine ScriptString := do textFor (← itemOf find 0)

/-- The place after the character at a place. -/
def placeAfter (units : List UInt16) (characters : Bool) (place : Nat) : Nat :=
  match units.drop place with
  | u :: v :: _ => if characters && Units.isHigh u && Units.isLow v then place + 2 else place + 1
  | _ => place + 1

/-- Lets a search begin one character later than it would. -/
def advance (o : ObjectId) (text : ScriptString) (characters : Bool) : Routine Unit := do
  let place := (← numberFor (← getProperty o lastIndex)).toLength
  setProperty o lastIndex (.ofInt (placeAfter text.units characters place))

/-! ### Several searches -/

/-- Goes through all that a pattern finds, as `foldMembers` goes through members. After an empty
find the search goes on one character later. -/
def foldFinds {σ : Type} (o : ObjectId) (text : ScriptString) (characters : Bool)
    (step : σ → ObjectId → ScriptString → Routine σ) (start : σ) : Routine σ :=
  foldMembers
    (do return (← execOn (.object o) (.string text)).map Value.object)
    (fun state v => do
      let find ← needObject v
      let found ← foundText find
      let state ← step state find found
      if found.units.isEmpty then advance o text characters
      return .ok state)
    (fun state => return state) memberLimit start

/-- The first find, or the texts of all if the pattern says so. -/
def findIn (this v : Value) : Routine Value := do
  let o ← needObject this
  let text ← textFor v
  let flags ← flagsOf o
  if !hasFlag flags 'g' then
    return ((← execOn this (.string text)).map Value.object).getD .null
  else do
    setProperty o lastIndex (.int 0)
    let list ← newArray []
    let count ← foldFinds o text (countsCharacters flags) (fun count _ found => do
      addItem list count (.string found)
      return count + 1) 0
    return if count = 0 then .null else .object list

/-- The constructor of patterns. -/
def patternConstructor : Value := Intrinsic.held Intrinsic.globals "RegExp" Intrinsic.all

/-- An iterator over all finds. -/
def findAllIn (this v : Value) : Routine Value := do
  let o ← needObject this
  let text ← textFor v
  let constructor ← constructorFor o
  let flags ← flagsOf o
  let copy ← needObject
    (← constructValue (constructor.getD patternConstructor) [this, unitsText flags])
  let place := (← numberFor (← getProperty o lastIndex)).toLength
  setProperty copy lastIndex (.ofInt place)
  return .object (← newObject
    ⟨.iterator (.finds copy text (hasFlag flags 'g') (countsCharacters flags) false),
      some Intrinsic.patternIterator, true, []⟩)

/-- Where a pattern first finds something. The place where its next search begins stays as it was.
-/
def searchIn (this v : Value) : Routine Value := do
  let o ← needObject this
  let text ← textFor v
  let before ← getProperty o lastIndex
  if !before.same (.int 0) then setProperty o lastIndex (.int 0)
  let find ← execOn this (.string text)
  let after ← getProperty o lastIndex
  if !after.same before then setProperty o lastIndex before
  match find with
  | none => return .int (-1)
  | some find => getProperty find (.name "index")

/-! ### Replacing -/

/-- A remembered part as text. -/
def groupText (v : Value) : Routine Value := do
  match v with
  | .undefined => return .undefined
  | v => return .string (← textFor v)

/-- What takes the place of a find: what a function gives for it, or the replacing text. -/
def replacementFor (text : ScriptString) (find : ObjectId) (found : ScriptString) (place : Nat)
    (replacement : Value) (isFunction : Bool) : Routine (List UInt16) := do
  let count ← lengthOf find
  let groups ← (List.range (count - 1)).mapM fun i => do groupText (← itemOf find (i + 1))
  let names ← getProperty find (.name "groups")
  if isFunction then
    let named := if names = .undefined then [] else [names]
    let answer ← callValue replacement .undefined
      (.string found :: groups ++ [.ofInt place, .string text] ++ named)
    return (← textFor answer).units
  else do
    let names ← if names = .undefined then pure names else do pure (.object (← toObject names))
    let r : Replaced := ⟨text.units, found.units, place, groups, names⟩
    r.substitute (← textFor replacement).units

/-- A text with other texts in the place of finds; `passed` is how much of it was gone through. -/
def replaceFinds (text : ScriptString) (replacement : Value) (isFunction : Bool) :
    Nat → List ObjectId → Routine (List UInt16)
  | passed, [] => return text.units.drop passed
  | passed, find :: rest => do
    let found ← foundText find
    let place := min (← numberFor (← getProperty find (.name "index"))).toLength text.units.length
    let other ← replacementFor text find found place replacement isFunction
    if passed ≤ place then
      let tail ← replaceFinds text replacement isFunction (place + found.units.length) rest
      return between text.units passed place ++ other ++ tail
    else replaceFinds text replacement isFunction passed rest

/-- A text in which what a pattern finds is replaced. -/
def replaceIn (this v replacement : Value) : Routine Value := do
  let o ← needObject this
  let text ← textFor v
  let isFunction := (← get).isFunction replacement
  let replacement ←
    if isFunction then pure replacement else do pure (.string (← textFor replacement))
  let flags ← flagsOf o
  let finds ←
    if hasFlag flags 'g' then do
      setProperty o lastIndex (.int 0)
      foldFinds o text (countsCharacters flags) (fun finds find _ => return finds ++ [find]) []
    else do pure (← execOn this (.string text)).toList
  return unitsText (← replaceFinds text replacement isFunction 0 finds)

/-! ### Splitting -/

/-- The greatest number of parts that is wanted. -/
def partLimit : Value → Routine Nat
  | .undefined => return 2 ^ 32 - 1
  | v => do return (← numberFor v).toWord

/-- The parts of a text between the finds of a pattern that looks at one place only. `start` is
where the current part begins, and `place` where the pattern looks next; the bound is on the number
of places. -/
def splitFrom (splitter : ObjectId) (text : ScriptString) (characters : Bool) (limit : Nat) :
    Nat → Nat → Nat → List Value → Routine (List Value)
  | 0, _, _, parts => return parts
  | n + 1, start, place, parts => do
    let units := text.units
    let onward := splitFrom splitter text characters limit n start
      (placeAfter units characters place) parts
    if units.length ≤ place then return parts ++ [unitsText (units.drop start)]
    else do
      setProperty splitter lastIndex (.ofInt place)
      match ← execOn (.object splitter) (.string text) with
      | none => onward
      | some find => do
        let finish := min (← numberFor (← getProperty splitter lastIndex)).toLength units.length
        if finish = start then onward
        else do
          let parts := parts ++ [unitsText (between units start place)]
          if parts.length = limit then return parts
          else do
            let count ← lengthOf find
            let groups ← (List.range (min (count - 1) (limit - parts.length))).mapM fun i =>
              itemOf find (i + 1)
            let parts := parts ++ groups
            if parts.length = limit then return parts
            else splitFrom splitter text characters limit n finish finish parts

/-- The parts of a text between what a pattern finds. -/
def splitIn (this v limit : Value) : Routine Value := do
  let o ← needObject this
  let text ← textFor v
  let constructor ← constructorFor o
  let flags ← flagsOf o
  let sticky := if hasFlag flags 'y' then flags else flags ++ [0x79]
  let splitter ← needObject
    (← constructValue (constructor.getD patternConstructor) [this, unitsText sticky])
  let limit ← partLimit limit
  if limit = 0 then newItems []
  else if text.units.isEmpty then
    match ← execOn (.object splitter) (.string text) with
    | none => newItems [.string text]
    | some _ => newItems []
  else do
    let bound := 2 * text.units.length + 2
    newItems (← splitFrom splitter text (countsCharacters flags) limit bound 0 0 [])

/-! ### All methods -/

/-- Calls a method of patterns. -/
def PatternFunction.perform (f : PatternFunction) (self : ObjectId) (purpose : Purpose)
    (arguments : List Value) : Routine Value := do
  let this := purpose.this
  let first := argument arguments 0
  let second := argument arguments 1
  match f with
  | .make => makePattern self purpose first second
  | .remake => remakePattern this first second
  | .exec => execPattern this first
  | .test => return .bool (← execOn this first).isSome
  | .text => do
    let o ← needObject this
    let source ← textFor (← getProperty o (.name "source"))
    let flags ← textFor (← getProperty o (.name "flags"))
    return .string (((ScriptString.append "/" source).append "/").append flags)
  | .source => patternSource this
  | .flags => patternFlags this
  | .flag letter => do
    let o ← needObject this
    match ← patternIn? this with
    | some p => return .bool (p.flags.has letter)
    | none =>
      if o = Intrinsic.pattern then return .undefined
      else throw (.unfit "RegExp object expected")
  | .find => findIn this first
  | .findAll => findAllIn this first
  | .replace => replaceIn this first second
  | .search => searchIn this first
  | .split => splitIn this first second

end HostView.Script
