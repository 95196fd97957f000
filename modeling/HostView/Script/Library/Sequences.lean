import HostView.Script.Library.Items

/-!
# Methods of arrays

The methods of arrays work on any object with a length. Most read the length first, then their
arguments, and then the items one after the other.
-/

namespace HostView.Script

/-! ### Texts -/

/-- The texts of the items of an object with a separator between them; a missing item has none. -/
def joinedText (o : ObjectId) (separator : Value) (text : Value → Routine ScriptString) :
    Routine ScriptString := do
  let length ← lengthOf o
  let separator ←
    match separator with
    | .undefined => pure (.text ",")
    | v => textFor v
  (List.range length).foldlM (fun joined index => do
    let joined : ScriptString := if index = 0 then joined else joined.append separator
    let item ← itemOf o index
    if item.isPresent then return joined.append (← text item) else return joined) ""

/-- The text of an array, which its `join` method gives. -/
def arrayText (this : Value) : Routine Value := do
  let o ← toObject this
  let method ← getProperty o (.name "join")
  if (← get).isFunction method then callValue method (.object o) []
  else return .string (← classText (.object o))

/-! ### Changes -/

/-- Takes the last item away. -/
def popItem (o : ObjectId) : Routine Value := do
  match ← lengthOf o with
  | 0 => do
    setLength o 0
    return .undefined
  | length + 1 => do
    let v ← itemOf o length
    deleteProperty o (.item length)
    setLength o length
    return v

/-- Takes the first item away, and moves the others. -/
def shiftItem (o : ObjectId) : Routine Value := do
  match ← lengthOf o with
  | 0 => do
    setLength o 0
    return .undefined
  | length + 1 => do
    let v ← itemOf o 0
    moveItems o 1 0 length false
    deleteProperty o (.item length)
    setLength o length
    return v

/-- The length of an object that grows by some items, and its new length. -/
def grownLength (o : ObjectId) (count : Nat) : Routine (Nat × Nat) := do
  let length ← lengthOf o
  if 2 ^ 53 ≤ length + count then throw (.unfit "Array loo long")
  return (length, length + count)

/-- Puts items after the others. -/
def pushItems (o : ObjectId) (items : List Value) : Routine Value := do
  let (length, grown) ← grownLength o items.length
  setItems o length items
  setLength o grown
  return .ofInt grown

/-- Puts items before the others. -/
def unshiftItems (o : ObjectId) (items : List Value) : Routine Value := do
  let (length, grown) ← grownLength o items.length
  if !items.isEmpty then
    moveItems o 0 items.length length true
    setItems o 0 items
  setLength o grown
  return .ofInt grown

/-- Reverses the items in place. -/
def reverseItems (o : ObjectId) : Routine Unit := do
  let length ← lengthOf o
  for i in List.range (length / 2) do
    let low ← item? o i
    let high ← item? o (length - 1 - i)
    if low.isSome || high.isSome then
      putItem o i high
      putItem o (length - 1 - i) low

/-- How many items from `start` on a call takes out. -/
def takenOut (length start : Nat) (arguments : List Value) : Routine Nat := do
  match arguments with
  | [] => return 0
  | [_] => return length - start
  | _ :: count :: _ => do return min (← integerFor count).toNat (length - start)

/-- The items that a method selects from an object, in an array. -/
def selectedItems (o : ObjectId) (start count : Nat) : Routine ObjectId := do
  let selected ← arrayFor o count
  addCopies selected 0 o start count
  setLength selected count
  return selected

/-- Takes items out and puts others in their place; what was taken out is an array. -/
def spliceItems (o : ObjectId) (arguments : List Value) : Routine Value := do
  let length ← lengthOf o
  let start ← boundIn length 0 (argument arguments 0)
  let count ← takenOut length start arguments
  let items := arguments.drop 2
  let removed ← selectedItems o start count
  if items.length ≠ count then
    moveItems o (start + count) (start + items.length) (length - count - start)
      (count < items.length)
    for i in (List.range (count - items.length)).reverse do
      deleteProperty o (.item (length - count + items.length + i))
  setItems o start items
  setLength o (length - count + items.length)
  return .object removed

/-- Assigns a value to the items between two places. -/
def fillItems (o : ObjectId) (arguments : List Value) : Routine Unit := do
  let length ← lengthOf o
  let start ← boundIn length 0 (argument arguments 1)
  let finish ← boundIn length length (argument arguments 2)
  for i in List.range (finish - start) do
    setItem o (start + i) (argument arguments 0)

/-- Copies the items between two places to another. -/
def copyPart (o : ObjectId) (arguments : List Value) : Routine Unit := do
  let length ← lengthOf o
  let target ← boundIn length 0 (argument arguments 0)
  let source ← boundIn length 0 (argument arguments 1)
  let finish ← boundIn length length (argument arguments 2)
  let count := min (finish - source) (length - target)
  moveItems o source target count (source < target && target < source + count)

/-! ### Copies -/

/-- A copy of the items in which some are replaced by others. -/
def splicedItems (o : ObjectId) (arguments : List Value) : Routine Value := do
  let length ← lengthOf o
  let start ← boundIn length 0 (argument arguments 0)
  let count ← takenOut length start arguments
  let before ← itemsBetween o 0 start
  newItems (before ++ arguments.drop 2 ++ (← itemsBetween o (start + count) length))

/-- A copy of the items in which one is replaced. -/
def replacedItem (o : ObjectId) (index v : Value) : Routine Value := do
  let length ← lengthOf o
  let place ← placeIn length index
  if 0 ≤ place ∧ place < length then newItems ((← itemsBetween o 0 length).set place.toNat v)
  else throw (.undefinedAt ("invalid array index: " ++ Decimal.ofInt place))

/-- An array appears in a concatenation as its items, and so does an object that says so. -/
def isSpread : Value → Routine Bool
  | .object o => do
    match ← getProperty o (.symbol (.wellKnown "isConcatSpreadable")) with
    | .undefined => return (← get).isArray o
    | v => return v.truthy
  | _ => return false

/-- Adds what a value contributes to a concatenation, and gives the length that it then has. -/
def concatValue (joined : ObjectId) (length : Nat) (v : Value) : Routine Nat := do
  match v, ← isSpread v with
  | .object o, true => do
    let count ← lengthOf o
    if 2 ^ 53 ≤ length + count then throw (.unfit "Array loo long")
    addCopies joined length o 0 count
    return length + count
  | v, _ => do
    addItem joined length v
    return length + 1

/-- The items of values one after the other. -/
def concatItems (o : ObjectId) (others : List Value) : Routine Value := do
  let joined ← arrayFor o 0
  let length ← (Value.object o :: others).foldlM (concatValue joined) 0
  setLength joined length
  return .object joined

/-- Adds items to an array from an index on, those of an array among them in its place, to a depth;
gives the index that comes next. The bound is on nesting. -/
def flattenInto (target : ObjectId) :
    Nat → Nat → Nat → List (Routine (Option Value)) → Routine Nat
  | 0, _, _, _ => throw .depth
  | _, _, index, [] => return index
  | n + 1, depth, index, read :: rest => do
    let next ←
      match ← read with
      | none => pure index
      | some v =>
        match depth, v with
        | d + 1, .object p => do
          if (← get).isArray p then
            let places := List.range (← lengthOf p)
            flattenInto target n d index (places.map fun i => item? p i)
          else do
            addItem target index v
            pure (index + 1)
        | _, v => do
          addItem target index v
          pure (index + 1)
    flattenInto target (n + 1) depth next rest
termination_by n _ _ items => (n, items.length)

/-- The items of an object in a new array, those of arrays among them taking the place of the
array, to a depth. -/
def flatItems (o : ObjectId) (depth : Value) : Routine Value := do
  let length ← lengthOf o
  let depth ← if depth = .undefined then pure 1 else integerFor depth
  let flat ← arrayFor o 0
  let _ ← flattenInto flat ((← get).chainLimit + 1) depth.toNat 0
    ((List.range length).map fun i => item? o i)
  return .object flat

/-- The items that a function gives for each item of an object, in a new array. -/
def flatMapItems (o : ObjectId) (f this : Value) : Routine Value := do
  let length ← lengthOf o
  let f ← needFunction f
  let flat ← arrayFor o 0
  let _ ← flattenInto flat ((← get).chainLimit + 1) 1 0 <|
    (List.range length).map fun i => do
      match ← item? o i with
      | some v => return some (← callValue f this [v, .ofInt i, .object o])
      | none => return none
  return .object flat

/-! ### Searches -/

/-- The values are the same, or both zero. -/
def Value.alike (a b : Value) : Bool := a.identical b || a.same b

/-- One of the items from an index on is like a value. -/
def hasItem (o : ObjectId) (v : Value) : List Nat → Routine Bool
  | [] => return false
  | i :: rest => do if (← itemOf o i).alike v then return true else hasItem o v rest

/-- The first of some places at which an item is identical to a value, or -1. -/
def placeOf (o : ObjectId) (v : Value) : List Nat → Routine Value
  | [] => return .int (-1)
  | i :: rest => do
    if (← item? o i).any (·.identical v) then return .ofInt i else placeOf o v rest

/-- How many items a search that goes backward may find: those up to the place that is given. -/
def searchedItems (length : Nat) : Option Value → Routine Nat
  | none => return length
  | some v => do return min ((← placeIn length v) + 1).toNat length

/-- The item of the first place for which a function gives truth, or the place. -/
def findItem (o : ObjectId) (place : Bool) (answer : Value → Nat → Routine Value) :
    List Nat → Routine Value
  | [] => return if place then .int (-1) else .undefined
  | i :: rest => do
    let v ← itemOf o i
    if (← answer v i).truthy then return if place then .ofInt i else v
    else findItem o place answer rest

/-! ### Calls for items -/

/-- One of the items at some places that are not missing passes a test. -/
def anyItem (o : ObjectId) (test : Value → Nat → Routine Bool) : List Nat → Routine Bool
  | [] => return false
  | i :: rest => do
    match ← item? o i with
    | some v => if ← test v i then return true else anyItem o test rest
    | none => anyItem o test rest

/-- Calls a function for each item that is not missing. -/
def visitItems (v : Visit) (o : ObjectId) (f this : Value) : Routine Value := do
  let length ← lengthOf o
  let f ← needFunction f
  let places := List.range length
  let answer (w : Value) (i : Nat) : Routine Value := callValue f this [w, .ofInt i, .object o]
  match v with
  | .every => do
    let refuted ← anyItem o (fun w i => do return !(← answer w i).truthy) places
    return .bool !refuted
  | .some => do return .bool (← anyItem o (fun w i => do return (← answer w i).truthy) places)
  | .forEach => do
    let _ ← anyItem o (fun w i => do let _ ← answer w i; return false) places
    return .undefined
  | .map => do
    let images ← arrayFor o length
    let _ ← anyItem o (fun w i => do addItem images i (← answer w i); return false) places
    return .object images
  | .filter => do
    let kept ← arrayFor o 0
    let _ ← places.foldlM (fun count i => do
      match ← item? o i with
      | some w => do
        if (← answer w i).truthy then
          addItem kept count w
          return count + 1
        else return count
      | none => return count) 0
    return .object kept

/-- Calls a function for each item that is not missing with what it gave for the one before. -/
def reduceItems (last : Bool) (o : ObjectId) (f : Value) (start : Option Value) : Routine Value := do
  let places := List.range (← lengthOf o)
  let f ← needFunction f
  let reduced ← (if last then places.reverse else places).foldlM
    (fun (reduced : Option Value) i => do
      match ← item? o i, reduced with
      | some w, some v => return some (← callValue f .undefined [v, w, .ofInt i, .object o])
      | w, none => return w
      | none, v => return v) start
  match reduced with
  | some v => return v
  | none => throw .noItem

/-! ### Order -/

/-- Puts an item after those, last first, that do not belong behind it. -/
def insertBy (isBehind : Value → Value → Routine Bool) (v : Value) : List Value → Routine (List Value)
  | [] => return [v]
  | w :: rest => do
    if ← isBehind w v then return w :: (← insertBy isBehind v rest) else return v :: w :: rest

/-- The items in order, undefined ones being last: in the order that a function gives, or in that
of their texts. -/
def sortedItems (compare : Option Value) (items : List Value) : Routine (List Value) := do
  let (absent, present) := items.partition (· = .undefined)
  match compare with
  | some compare => do
    let isBehind (v w : Value) : Routine Bool := do
      if v = w then return false
      let order ← numberFor (← callValue compare .undefined [v, w])
      return order.truthy && order.number?.any fun x => !x.negative
    let sorted ← present.foldlM (fun sorted v => insertBy isBehind v sorted) []
    return sorted.reverse ++ absent
  | none =>
    if present.length < 2 then return present ++ absent
    else do
      let texts ← present.mapM fun v => do return ((← textFor v).units, v)
      return (texts.mergeSort fun a b => a.1 ≤ b.1).map (·.2) ++ absent

/-- Orders the items in place; missing ones come last. -/
def sortItems (compare : Option Value) (o : ObjectId) : Routine Value := do
  let length ← lengthOf o
  let items ← (List.range length).filterMapM (item? o)
  setItems o 0 (← sortedItems compare items)
  for i in List.range (length - items.length) do
    deleteProperty o (.item (items.length + i))
  return .object o

/-- What an order by a function is given: nothing, or the function. -/
def comparison (v : Value) : Routine (Option Value) := do
  if v = .undefined then return none else some <$> needFunction v

/-! ### All methods -/

/-- A new array of the arguments, by a constructor that may be the value itself. -/
def arrayOfArguments (this : Value) (items : List Value) : Routine Value := do
  let o ← constructOr this [.ofInt items.length]
  for (v, i) in items.zipIdx do
    addItem o i v
  setLength o items.length
  return .object o

/-- Calls a method of arrays on an object. -/
def SequenceFunction.on (f : SequenceFunction) (o : ObjectId) (arguments : List Value) :
    Routine Value := do
  let first := argument arguments 0
  let second := argument arguments 1
  match f with
  | .localText => do
    return .string (← joinedText o .undefined fun v => do
      textFor (← callMethod v "toLocaleString" []))
  | .join => do return .string (← joinedText o first textFor)
  | .item => do
    let length ← lengthOf o
    let place ← placeIn length first
    if 0 ≤ place ∧ place < length then itemOf o place.toNat else return .undefined
  | .replaced => replacedItem o first second
  | .includes => do
    let length ← lengthOf o
    if length = 0 then return .bool false
    let start ← boundIn length 0 second
    return .bool (← hasItem o first ((List.range length).drop start))
  | .indexOf => do
    let length ← lengthOf o
    if length = 0 then return .int (-1)
    let start ← boundIn length 0 second
    placeOf o first ((List.range length).drop start)
  | .lastIndexOf => do
    let length ← lengthOf o
    if length = 0 then return .int (-1)
    placeOf o first (List.range (← searchedItems length arguments[1]?)).reverse
  | .pop => popItem o
  | .push => pushItems o arguments
  | .shift => shiftItem o
  | .unshift => unshiftItems o arguments
  | .reverse => do
    reverseItems o
    return .object o
  | .reversed => do
    let places := List.range (← lengthOf o)
    newItems (← places.reverse.mapM (itemOf o))
  | .slice => do
    let length ← lengthOf o
    let start ← boundIn length 0 first
    let finish ← boundIn length length second
    return .object (← selectedItems o start (finish - start))
  | .splice => spliceItems o arguments
  | .spliced => splicedItems o arguments
  | .concat => concatItems o arguments
  | .fill => do
    fillItems o arguments
    return .object o
  | .copyWithin => do
    copyPart o arguments
    return .object o
  | .flat => flatItems o first
  | .flatMap => flatMapItems o first second
  | .visit v => visitItems v o first second
  | .find last place => do
    let places := List.range (← lengthOf o)
    let f ← needFunction first
    findItem o place (fun v i => callValue f second [v, .ofInt i, .object o])
      (if last then places.reverse else places)
  | .reduce last => reduceItems last o first arguments[1]?
  | .iterate part =>
    return .object (← newObject
      ⟨.iterator (.items (some o) part 0), some Intrinsic.listIterator, true, []⟩)
  | _ => return .object o

/-- Calls a function about arrays. -/
def SequenceFunction.perform (f : SequenceFunction) (purpose : Purpose) (arguments : List Value) :
    Routine Value := do
  let this := purpose.this
  let first := argument arguments 0
  match f with
  | .make => makeArray purpose arguments
  | .of => arrayOfArguments this arguments
  | .isArray => return .bool (first.object?.any (← get).isArray)
  | .text => arrayText this
  | .sort => do
    let compare ← comparison first
    sortItems compare (← toObject this)
  | .sorted => do
    let compare ← comparison first
    newItems (← sortedItems compare (← allItems (← toObject this)))
  | f => do f.on (← toObject this) arguments

end HostView.Script
