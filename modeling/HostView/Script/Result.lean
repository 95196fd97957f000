import HostView.Script.Content
import HostView.Script.Library.Sequences

/-!
# The result of a script as a document

A value is written as a document: an object that has a `toJSON` method is replaced by what that
gives, a function or symbol has no document, and no object may contain itself. The result of a
script is then read back with strictness: it may not be nested too deeply and its strings must be
text.
-/

namespace HostView.Script

/-! ### Contents -/

/-- How contents are found. -/
structure Reporting where
  /-- An array of the objects that the current one is part of. -/
  within : ObjectId
  /-- A function that is asked what stands for each value. -/
  replacer : Option Value
  /-- An array of the names of members that are reported; all are if there is none. -/
  names : Option ObjectId

/-- What stands for a value under a key: what its `toJSON` method gives, if it has one, and what the
replacing function makes of that. -/
def standIn (r : Reporting) (holder : Value) (key : ScriptString) (v : Value) : Routine Value := do
  let v ←
    match v with
    | .object _ | .bigInt _ => do
      let method ← readFrom v (.name "toJSON")
      if (← get).isFunction method then callValue method v [.string key] else pure v
    | v => pure v
  match r.replacer with
  | some f => callValue f holder [.string key, v]
  | none => return v

/-- The value is reported, and not left out. -/
def isReported (v : Value) : Routine Bool := do
  match v with
  | .undefined | .symbol _ => return false
  | v => return !(← get).isFunction v

/-- The primitive value in a box, as it is reported; any other value is itself. -/
def opened (v : Value) : Routine Value := do
  let engine ← get
  match v.object?.map fun o => (engine.object o).kind with
  | some (.boxed (.string _)) => return .string (← textFor v)
  | some (.boxed (.int _)) | some (.boxed (.float _)) => numberFor v
  | some (.boxed (.symbol _)) => return v
  | some (.boxed p) => return p
  | _ => return v

/-- An object, together with what is found out about it as part of those around it, which it must
not be one of. -/
def insideOf {α : Type} (r : Reporting) (o : ObjectId) (act : Routine α) : Routine α := do
  let v := Value.object o
  let places := List.range (← lengthOf r.within)
  if ← hasItem r.within v places then throw .circular
  let _ ← pushItems r.within [v]
  let result ← act
  let _ ← popItem r.within
  return result

/-- The names of the members of an object that are reported. -/
def reportedNames (r : Reporting) (o : ObjectId) : Routine (List ScriptString) := do
  match r.names with
  | none => enumerableNames o
  | some list => do (← allItems list).mapM textFor

/-- The content of a value that is reported. The bound is on nesting. -/
def contentOf (r : Reporting) : Nat → Value → Routine Content
  | 0, _ => throw .depth
  | n + 1, v => do
    match ← opened v with
    | .undefined | .symbol _ | .null => return .null
    | .bool b => return .bool b
    | .string s => return .string s
    | .bigInt _ => throw .bigIntInDocument
    | .int i => return .number (.ofInt i.toInt)
    | .float x => return .number x
    | .object o =>
      insideOf r o do
        if (← get).isArray o then
          let items ← (List.range (← lengthOf o)).mapM fun index => do
            let item ← itemOf o index
            let item ← standIn r (.object o) (.text (Decimal.ofNat index)) item
            if ← isReported item then contentOf r n item else return .null
          return .array items
        else
          let members ← (← reportedNames r o).filterMapM fun name => do
            let member ← getProperty o (.string name)
            let member ← standIn r (.object o) name member
            if ← isReported member then return some (name, ← contentOf r n member)
            else return none
          return .object members

/-- A bound on the nesting of documents: no script object occurs twice on the way to a part of
one, nor does a host value, which may be shown as a live value and as a snapshot. There is room for
objects that are made on the way. -/
def documentLimit : Routine Nat := do
  return (← get).objects.size + 2 * (← Turn.heapSize) + 500

/-- The content of a value, if it is reported. -/
def report (v : Value) (replacer : Option Value) (names : Option ObjectId) :
    Routine (Option Content) := do
  let r : Reporting := ⟨← newArray [], replacer, names⟩
  let holder ← newWith [(.name "", .plain v)]
  let v ← standIn r (.object holder) "" v
  if ← isReported v then return some (← contentOf r (← documentLimit) v) else return none

/-! ### Documents -/

/-- The document of a value, null if it has none. -/
def document (v : Value) : Routine Json := do
  return ((← report v none none).map Content.toJson).getD .null

/-- The deepest nesting of a document that is read back. -/
def nestingLimit : Nat := 127

mutual

/-- A document with at most `room` levels in which every string is text. -/
def isStrict (room : Nat) : Json → Bool
  | .null | .bool _ | .number _ => true
  | .string (.text _) => true
  | .string (.illFormed _) => false
  | .array items => 0 < room && strictItems (room - 1) items
  | .object members => 0 < room && strictMembers (room - 1) members

/-- Every item is strict. -/
def strictItems (room : Nat) : List Json → Bool
  | [] => true
  | j :: rest => isStrict room j && strictItems room rest

/-- Every member is strict and has text for a name. -/
def strictMembers (room : Nat) : List (ScriptString × Json) → Bool
  | [] => true
  | (.text _, j) :: rest => isStrict room j && strictMembers room rest
  | (.illFormed _, _) :: _ => false

end

end HostView.Script
