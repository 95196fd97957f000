import HostView.Exposure.Receiver
import HostView.Script.Result

/-!
# Outlines of script values

What can be told about a script value from outside: a primitive is itself, an array and a plain
object are known by their parts, a wrap by what it says of itself, and the rest only by kind.
Taking the outline of a value reads its properties.
-/

namespace HostView.Script

/-- What is told of a script value. -/
inductive Outline where
  | undefined
  | null
  | bool (b : Bool)
  | number (x : Binary64)
  | bigInt (i : Int)
  | string (s : ScriptString)
  | symbol
  | function
  | array (items : List Outline)
  | object (members : List (ScriptString × Outline))
  | error (name message : String)
  /-- A wrap, or an object that stands before one, with the type of its host value. -/
  | wrap (type : String) (mask : Mask) (kind : WrapKind) (state : WrapState)

/-- The outline of a wrap. -/
def Machine.wrapOutline (m : Machine) (w : WrapId) : Outline :=
  match m.wraps.wrap? w with
  | some wrap =>
    let type := wrap.value.map fun r => (m.heap.typeOf r).render
    .wrap (type.getD "") wrap.mask wrap.kind wrap.state
  | none => .undefined

/-- The text that an action gives, unless it throws or the text is ill-formed. -/
def textIfAny (act : Routine ScriptString) : Routine (Option String) := do
  match ← tryCatch (some <$> act) fun _ => return none with
  | some (.text s) => return some s
  | _ => return none

/-- The text of a part of an error, which is empty if the part has none. -/
def errorPart (v : Value) (name : String) : Routine String := do
  return (← textIfAny do textFor (← readFrom v (.name name))).getD ""

/-- The message of an error, if it has one that is text. -/
def messageOf? (v : Value) : Routine (Option String) := do
  match ← tryCatch (readFrom v (.name "message")) fun _ => return .undefined with
  | .undefined | .null => return none
  | message => textIfAny (textFor message)

/-- What a thrown value is called, as it is told outside. -/
structure Complaint where
  name : String
  message : String

/-- What is told outside of what was thrown. -/
def complaint (e : Thrown) : Routine Complaint := do
  let v ← e.toValue
  return ⟨← errorPart v "name", ← errorPart v "message"⟩

/-- The outline of a value; the bound is on its nesting. -/
def outlineOf : Nat → Value → Action Outline
  | 0, _ => throw .depth
  | n + 1, v => do
    match v with
    | .undefined => return .undefined
    | .null => return .null
    | .bool b => return .bool b
    | .int i => return .number (.ofInt i.toInt)
    | .float x => return .number x
    | .bigInt i => return .bigInt i
    | .string s => return .string s
    | .symbol _ => return .symbol
    | .object o => do
      match ← unwrap o with
      | some w => return (← get).wrapOutline w
      | none => do
        let m ← get
        if (m.callable? o).isSome then return .function
        else if m.isArray o then
          return .array (← (List.range (← lengthOf o)).mapM fun index => do
            outlineOf n (← itemOf o index))
        else
          match (m.object o).kind with
          | .error => return .error (← errorPart v "name") (← errorPart v "message")
          | _ =>
            let names := (← ownKeys o).filterMap Key.string?
            return .object (← names.mapM fun name => do
              return (name, ← outlineOf n (← getProperty o (.string name))))

/-- The outline of a value. -/
def outline (v : Value) : Action Outline := do
  outlineOf (← documentLimit) v

end HostView.Script
