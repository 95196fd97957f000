import HostView.Exposure.Ledger
import HostView.Pattern.Basic
import HostView.Script.Callable
import HostView.Script.Iterator

/-!
# Script objects

An object has properties of its own and may inherit from a prototype. A proxy stands before another
object, its target: whatever is asked of it is answered by the methods of a third object, its
handler, or by the target if the handler has no method for the question.
-/

namespace HostView.Script

/-- A property. -/
inductive Property where
  | data (value : Value) (writable enumerable configurable : Bool)
  | accessor (get set : Option ObjectId) (enumerable configurable : Bool)
  deriving DecidableEq

namespace Property

/-- An ordinary property, as an assignment makes it. -/
def plain (value : Value) : Property := .data value true true true

/-- A property that enumeration leaves out. -/
def hidden (value : Value) : Property := .data value true false true

/-- The value that the property has without a call. -/
def value? : Property → Option Value
  | .data v _ _ _ => some v
  | .accessor .. => none

/-- The property takes part in enumeration. -/
def enumerable : Property → Bool
  | .data _ _ e _ => e
  | .accessor _ _ e _ => e

/-- The property may be deleted and redefined. -/
def configurable : Property → Bool
  | .data _ _ _ c => c
  | .accessor _ _ _ c => c

end Property

/-- What kind of object an object is. -/
inductive ObjectKind where
  | ordinary
  /-- An array; the length of one that is fixed does not change. -/
  | array (length : Nat) (fixed : Bool)
  | function (f : Callable) (constructs : Bool)
  | error
  /-- A primitive value as an object. -/
  | boxed (v : Value)
  | wrap (w : WrapId)
  | iterator (i : Iterator)
  | pattern (p : Pattern)
  | promise
  | proxy (target handler : ObjectId)
  /-- The object from which the objects inherit that a function constructs, as long as nothing has
  asked for it. -/
  | unmade (owner : ObjectId)

/-- An object. Its properties are kept in the order in which they were made. -/
structure Object where
  kind : ObjectKind
  proto : Option ObjectId
  extensible : Bool
  properties : List (Key × Property)

namespace Object

instance : Inhabited Object := ⟨⟨.ordinary, none, true, []⟩⟩

/-- The property at a key, among those that are kept. -/
def find? (o : Object) (k : Key) : Option Property := o.properties.lookup k

/-- Replaces the property at a key, or adds one at the end. -/
def put (o : Object) (k : Key) (p : Property) : Object :=
  if (o.find? k).isSome then
    { o with properties := o.properties.map fun e => if e.1 = k then (k, p) else e }
  else { o with properties := o.properties ++ [(k, p)] }

/-- Takes the property at a key away. -/
def drop (o : Object) (k : Key) : Object :=
  { o with properties := o.properties.filter fun e => e.1 ≠ k }

end Object

end HostView.Script
