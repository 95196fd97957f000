import HostView.Script.Library.Patterns

/-!
# Methods of iterators

How the iterators of the engine find their next member, and what can be made of the members of any
iterator: a value, or another iterator that takes them as they are needed.
-/

namespace HostView.Script

/-! ### Iterators of the engine -/

/-- The class of an iterator. -/
def Iterator.class : Iterator → IteratorClass
  | .items .. => .list
  | .characters _ => .text
  | .finds .. => .pattern
  | .stage _ => .stage
  | .wrapped .. => .wrap

/-- A member with `false`, or the last answer with `true`. -/
abbrev Answer := Value × Bool

/-- The answer of an iterator that has no more members. -/
def noMore : Answer := (.undefined, true)

/-- The iterator of a class that a value must be. -/
def needIterator (c : IteratorClass) (this : Value) : Routine (ObjectId × Iterator) := do
  let refuse : Routine (ObjectId × Iterator) := throw (.unfit (c.render ++ " object expected"))
  match this with
  | .object o =>
    match (← getObject o).kind with
    | .iterator i => if i.class = c then return (o, i) else refuse
    | _ => refuse
  | _ => refuse

/-- Changes how far an iterator has come. -/
def setIterator (o : ObjectId) (i : Iterator) : Routine Unit :=
  modifyObject o fun object => { object with kind := .iterator i }

/-- The part of a member of a list that is given. -/
def memberPart (list : ObjectId) (index : Nat) : MemberPart → Routine Value
  | .key => return .ofInt index
  | .value => itemOf list index
  | .entry => do newItems [.ofInt index, ← itemOf list index]

/-- The next item of a list. -/
def nextItem (o : ObjectId) (list : Option ObjectId) (part : MemberPart) (index : Nat) :
    Routine Answer := do
  match list with
  | none => return noMore
  | some list => do
    let length := (← numberFor (← getProperty list .length)).toWord
    if length ≤ index then
      setIterator o (.items none part index)
      return noMore
    else do
      setIterator o (.items (some list) part (index + 1))
      return (← memberPart list index part, false)

/-- The next character of a text. -/
def nextCharacter (o : ObjectId) (rest : List UInt16) : Routine Answer := do
  match Units.points rest with
  | [] => return noMore
  | n :: _ => do
    let units := Units.ofPoint n
    setIterator o (.characters (rest.drop units.length))
    return (unitsText units, false)

/-- The next find of a pattern. -/
def nextFind (o pattern : ObjectId) (text : ScriptString) (everywhere characters finished : Bool) :
    Routine Answer := do
  let finish := setIterator o (.finds pattern text everywhere characters true)
  if finished then return noMore
  match ← execOn (.object pattern) (.string text) with
  | none => do
    finish
    return noMore
  | some find => do
    if everywhere then
      if (← foundText find).units.isEmpty then advance pattern text characters
    else finish
    return (.object find, false)

/-- What a method of another iterator answers. -/
def answerBy (iterator : Value) (method : Value) (arguments : List Value) : Routine Answer := do
  match ← memberIn (← callValue method iterator arguments) with
  | some v => return (v, false)
  | none => return noMore

/-- What an iterator answers that stands before another. -/
def wrappedAnswer (iterator next : Value) (closing : Bool) (arguments : List Value) :
    Routine Answer := do
  if closing then
    let method ← readFrom iterator (.name "return")
    if method.isPresent then answerBy iterator method arguments else return noMore
  else answerBy iterator next arguments

/-! ### Iterators made of others -/

/-- The stage that an object is. -/
def stageOf (o : ObjectId) : Routine Stage := do
  match (← getObject o).kind with
  | .iterator (.stage s) => return s
  | _ => throw (.unfit (IteratorClass.stage.render ++ " object expected"))

/-- Changes a stage. -/
def modifyStage (o : ObjectId) (f : Stage → Stage) : Routine Unit := do
  setIterator o (.stage (f (← stageOf o)))

/-- The method that a stage calls on what it is made of. -/
def sourceMethod (s : Stage) (closing : Bool) : Routine Value :=
  if closing then orDrop s.source (getProperty s.source (.name "return")) else return s.next

/-- The next member of what a stage is made of. -/
def sourceAnswer (s : Stage) (method : Value) : Routine Answer :=
  answerBy (.object s.source) method []

/-- Leaves members out, and gives the one after them. -/
def dropStep (o : ObjectId) (s : Stage) (closing : Bool) (method : Value) : Nat → Routine Answer
  | 0 => sourceAnswer s method
  | n + 1 => do
    modifyStage o fun s => { s with count := n }
    let (_, finished) ← sourceAnswer s method
    if finished || closing then return noMore else dropStep o s closing method n

/-- Calls the function of a stage for a member. -/
def stageImage (o : ObjectId) (s : Stage) (v : Value) : Routine Value := do
  let count := (← stageOf o).count
  modifyStage o fun s => { s with count := count + 1 }
  orDrop s.source (callValue s.function .undefined [v, .ofInt count])

/-- The next member for which a function gives truth; the bound is on how many are tried. -/
def filterStep (o : ObjectId) (s : Stage) (closing : Bool) (method : Value) : Nat → Routine Answer
  | 0 => throw .depth
  | n + 1 => do
    let (v, finished) ← sourceAnswer s method
    if finished || closing then return (v, finished)
    else if (← stageImage o s v).truthy then return (v, false)
    else filterStep o s closing method n

/-- The iterator over what the function of a stage gave. -/
def innerOf (s : Stage) (v : Value) : Routine ObjectId :=
  orDrop s.source do
    let image ← needObject v
    let method ← getProperty image (.symbol .iterator)
    if method.isPresent then iteratorBy v method else return image

/-- Ends the inner iterator of a stage. -/
def endInner (o inner : ObjectId) : Routine Unit := do
  dropIterator inner
  modifyStage o fun s => { s with inner := none }

/-- The next member of the inner iterator of a stage, if it has one. -/
def innerAnswer (o : ObjectId) (s : Stage) (closing : Bool) (inner : ObjectId) :
    Routine (Option Answer) := do
  let ask : Routine (Option Answer) := do
    let method ← getProperty inner (.name (if closing then "return" else "next"))
    if closing && !method.isPresent then return none
    else do
      let (v, finished) ← answerBy (.object inner) method []
      return if finished then none else some (v, false)
  let answer ← tryCatch ask fun e => do
    endInner o inner
    dropIterator s.source
    throw e
  if answer.isNone then endInner o inner
  return answer

/-- The next member of what a function gives for members; the bound is on how many are tried. -/
def flatMapStep (o : ObjectId) (closing : Bool) : Nat → Routine Answer
  | 0 => throw .depth
  | n + 1 => do
    let s ← stageOf o
    match s.inner with
    | some inner => do
      match ← innerAnswer o s closing inner with
      | some answer => return answer
      | none => flatMapStep o closing n
    | none => do
      let (v, finished) ← sourceAnswer s (← sourceMethod s closing)
      if finished || closing then return (v, finished)
      else do
        let inner ← innerOf s (← stageImage o s v)
        modifyStage o fun s => { s with inner := some inner }
        flatMapStep o closing n

/-- The answer of a stage. -/
def stageStep (o : ObjectId) (s : Stage) (closing : Bool) : Routine Answer := do
  match s.staging with
  | .drop => do dropStep o s closing (← sourceMethod s closing) s.count
  | .filter => do filterStep o s closing (← sourceMethod s closing) memberLimit
  | .map => do
    let (v, finished) ← sourceAnswer s (← sourceMethod s closing)
    if finished || closing then return (v, finished) else return (← stageImage o s v, false)
  | .flatMap => flatMapStep o closing memberLimit
  | .take =>
    if s.count = 0 then do
      closeIterator s.source
      return noMore
    else do
      let method ← sourceMethod s closing
      modifyStage o fun s => { s with count := s.count - 1 }
      sourceAnswer s method

/-- The answer of a stage, which must not be asked while it looks for one. -/
def stageAnswer (o : ObjectId) (s : Stage) (closing : Bool) : Routine Answer := do
  if s.running then throw (.unfit "Generator is running")
  else if s.finished then return noMore
  else do
    modifyStage o fun s => { s with running := true }
    let finish (finished : Bool) : Routine Unit :=
      modifyStage o fun s => { s with running := false, finished := closing || finished }
    let answer ← tryCatch (stageStep o s closing) fun e => do
      finish false
      throw e
    finish answer.2
    return answer

/-- The answer of an iterator of a class when it is asked for a member, or to end. -/
def answerFor (c : IteratorClass) (closing : Bool) (this : Value) (arguments : List Value) :
    Routine Value := do
  let (o, i) ← needIterator c this
  let (v, finished) ←
    match i with
    | .items list part index => nextItem o list part index
    | .characters rest => nextCharacter o rest
    | .finds pattern text everywhere characters finished =>
      nextFind o pattern text everywhere characters finished
    | .stage s => stageAnswer o s closing
    | .wrapped iterator next => wrappedAnswer iterator next closing arguments
  iteratorAnswer v finished

/-! ### Methods of all iterators -/

/-- How many members are taken or dropped. -/
def memberCount (v : Value) : Routine Nat := do
  let n ← numberFor v
  if n.number?.any (fun x => x.isNaN) || n.toInteger < 0 then
    throw (.undefinedAt "must be positive")
  else return n.toInteger.toNat

/-- An iterator made of another one. -/
def newStage (staging : Staging) (source : ObjectId) (function : Value) (count : Nat) :
    Routine Value := do
  let next ← nextOf source
  let s : Stage :=
    { staging, source, next, function, inner := none, count, running := false, finished := false }
  return .object (← newObject
    ⟨.iterator (.stage s), some Intrinsic.stageIterator, true, []⟩)

/-- Calls a function for each member of an iterator, until a step has a result; then no more
members are wanted. -/
def searchMembers (iterator : ObjectId) (f : Value) (step : Value → Value → Option Value)
    (otherwise : Value) : Routine Value := do
  let f ← needFunction f
  let next ← nextOf iterator
  foldMembers (nextMember iterator next)
    (fun index v => do
      let answer ← orDrop iterator (callValue f .undefined [v, .ofInt (index : Nat)])
      match step v answer with
      | some result => do
        closeIterator iterator
        return .error result
      | none => return .ok (index + 1))
    (fun _ => return otherwise) memberLimit 0

/-- Calls a function for each member with what it gave for the one before. -/
def reduceMembers (iterator : ObjectId) (f : Value) (start : Option Value) : Routine Value := do
  let f ← needFunction f
  let next ← nextOf iterator
  let (first, index) ←
    match start with
    | some v => pure (v, 0)
    | none => do
      match ← nextMember iterator next with
      | some v => pure (v, 1)
      | none => throw (.unfit "empty iterator")
  foldMembers (nextMember iterator next)
    (fun (reduced, index) v => do
      let answer ← orDrop iterator (callValue f .undefined [reduced, v, .ofInt (index : Nat)])
      return .ok (answer, index + 1))
    (fun (reduced, _) => return reduced) memberLimit (first, index)

/-- The members of an iterator in an array. -/
def collectMembers (iterator : ObjectId) : Routine Value := do
  let next ← nextOf iterator
  let o ← newArray []
  foldMembers (nextMember iterator next)
    (fun index v => do
      addItem o index v
      return .ok (index + 1))
    (fun _ => return .object o) memberLimit 0

/-- The constructor of iterators. -/
def iteratorConstructor : Value := Intrinsic.held Intrinsic.globals "Iterator" Intrinsic.all

/-- An iterator over a value, which may be one itself. -/
def iteratorFor (v : Value) : Routine Value := do
  match v with
  | .string _ => do callValue (← readFrom v (.symbol .iterator)) v []
  | .object o => do
    let method ← getProperty o (.symbol .iterator)
    let iterator ← if method.isPresent then iteratorBy v method else pure o
    if ← isInstanceFrom (.object iterator) (← get).chainLimit iteratorConstructor then
      return .object iterator
    else do
      let next ← nextOf iterator
      return .object (← newObject
        ⟨.iterator (.wrapped (.object iterator) next), some Intrinsic.wrapIterator, true, []⟩)
  | _ => throw (.unfit "Iterator.from called on non-object")

/-- Names the class of an iterator. -/
def tagIterator (this tag : Value) : Routine Unit := do
  let o ← needObject this
  if o = Intrinsic.iterator then throw (.unfit "Cannot assign to read only property")
  let k := Key.symbol .toStringTag
  if (← getOwnProperty o k).isSome then setProperty o k tag else defineMember o k tag

/-- Makes an object that inherits from the prototype of iterators; the constructor of iterators
makes none by itself. -/
def makeIterator (self : ObjectId) (purpose : Purpose) : Routine Value := do
  match purpose.target? with
  | none => throw (.needsNew true)
  | some target =>
    if target = self then throw (.unfit "abstract class not constructable")
    else
      return .object (← newObject
        ⟨.ordinary, some (← protoFor purpose Intrinsic.iterator), true, []⟩)

/-- Calls a method that all iterators have. -/
def IteratorFunction.on (f : IteratorFunction) (iterator : ObjectId) (arguments : List Value) :
    Routine Value := do
  let first := argument arguments 0
  match f with
  | .take => do newStage .take iterator .undefined (← memberCount first)
  | .drop => do newStage .drop iterator .undefined (← memberCount first)
  | .flatMap => do newStage .flatMap iterator (← needFunction first) 0
  | .visit .map => do newStage .map iterator (← needFunction first) 0
  | .visit .filter => do newStage .filter iterator (← needFunction first) 0
  | .visit .every =>
    searchMembers iterator first
      (fun _ answer => if answer.truthy then none else some (.bool false)) (.bool true)
  | .visit .some =>
    searchMembers iterator first
      (fun _ answer => if answer.truthy then some (.bool true) else none) (.bool false)
  | .visit .forEach => searchMembers iterator first (fun _ _ => none) .undefined
  | .find =>
    searchMembers iterator first
      (fun v answer => if answer.truthy then some v else none) .undefined
  | .reduce => reduceMembers iterator first arguments[1]?
  | _ => collectMembers iterator

/-- Calls a function about iterators. -/
def IteratorFunction.perform (f : IteratorFunction) (self : ObjectId) (purpose : Purpose)
    (arguments : List Value) : Routine Value := do
  let this := purpose.this
  match f with
  | .next c => answerFor c false this arguments
  | .close c => answerFor c true this arguments
  | .self => return this
  | .ofValue => iteratorFor (argument arguments 0)
  | .make => makeIterator self purpose
  | .tag => return .string "Iterator"
  | .setTag => do
    tagIterator this (argument arguments 0)
    return .undefined
  | f => do f.on (← needObject this) arguments

end HostView.Script
