import HostView.Attribute
import HostView.Host.Atom

/-!
# Host types

Host values have structural types. Tables are keyed by atoms, which the syntax of types enforces;
a table without a yield is a set. Each declaration of a record carries the identity of its
descriptor, which tells apart records that are declared twice and is ignored when types are
compared.
-/

namespace HostView

/-- The three types of real numbers. -/
inductive RealKind where
  | double
  | time
  | interval
  deriving DecidableEq

/-- The word for a kind of real numbers. -/
def RealKind.render : RealKind → String
  | .double => "double"
  | .time => "time"
  | .interval => "interval"

/-- The declaration of a record field, over the type of types. -/
structure Field (τ : Type) where
  name : String
  type : τ
  attributes : Attributes

/-- The type of a host value. -/
inductive HostType where
  | atom (a : AtomType)
  | real (kind : RealKind)
  | record (descriptor : Nat) (name : String) (fields : List (Field HostType))
  | table (key : AtomType) (yield : Option HostType)
  | vector (element : HostType)

namespace HostType

instance : Inhabited HostType := ⟨.atom .bool⟩

/-- The word for the kind of a type. -/
def kind : HostType → String
  | .atom a => a.kind
  | .real k => k.render
  | .record .. => "record"
  | .table _ none => "set"
  | .table _ (some _) => "table"
  | .vector _ => "vector"

/-- The text of a type. -/
def render : HostType → String
  | .atom a => a.render
  | .real k => k.render
  | .record _ name _ => "record " ++ name
  | .table key none => "set[" ++ key.render ++ "]"
  | .table key (some yield) => "table[" ++ key.render ++ "] of " ++ render yield
  | .vector element => "vector of " ++ render element

/-- Values of the type may key a table. -/
def isAtomic : HostType → Bool
  | .atom _ => true
  | _ => false

/-- The declared fields, none unless the type is a record. -/
def fields : HostType → List (Field HostType)
  | .record _ _ fields => fields
  | _ => []

/-- The identity of a record's descriptor. -/
def descriptor? : HostType → Option Nat
  | .record d _ _ => some d
  | _ => none

mutual

/-- Structural equality: the same syntax, whatever the descriptors. -/
def same : HostType → HostType → Bool
  | .atom a, .atom b => a = b
  | .real a, .real b => a = b
  | .record _ n fs, .record _ m gs => n = m && sameFields fs gs
  | .table k y, .table l z => k = l && sameYield y z
  | .vector a, .vector b => same a b
  | _, _ => false

/-- The same names, types and attributes in the same order. -/
def sameFields : List (Field HostType) → List (Field HostType) → Bool
  | [], [] => true
  | ⟨n, τ, a⟩ :: fs, ⟨m, σ, b⟩ :: gs => n = m && a = b && same τ σ && sameFields fs gs
  | _, _ => false

/-- No yield on either side, or yields that are the same. -/
def sameYield : Option HostType → Option HostType → Bool
  | none, none => true
  | some a, some b => same a b
  | _, _ => false

end

mutual

/-- How deeply types are nested in a type, itself included. -/
def depth : HostType → Nat
  | .atom _ => 1
  | .real _ => 1
  | .record _ _ fields => depthOfFields fields + 1
  | .table _ yield => depthOfYield yield + 1
  | .vector element => depth element + 1

/-- The greatest depth of the types of fields. -/
def depthOfFields : List (Field HostType) → Nat
  | [] => 0
  | ⟨_, type, _⟩ :: fields => max (depth type) (depthOfFields fields)

/-- The depth of the type of a yield, if there is one. -/
def depthOfYield : Option HostType → Nat
  | none => 0
  | some type => depth type

end

end HostType

/-- The position of the first field of the given name. -/
def fieldOffset? {τ : Type} (fields : List (Field τ)) (name : String) : Option Nat :=
  fields.findIdx? (·.name = name)

end HostView
