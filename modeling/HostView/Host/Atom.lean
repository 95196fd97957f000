import HostView.Net.Port
import HostView.Net.Subnet

/-!
# Atoms

The values that may key a table: truth values, 64-bit integers and counts, texts, addresses,
subnets, ports and the variants of an enumeration. Atoms of one type are totally ordered; an
enumeration is ordered by the position of its variants.
-/

namespace HostView

/-- An enumeration: a name and the names of its variants. -/
structure Enumeration where
  name : String
  variants : List String
  deriving DecidableEq

namespace Enumeration

/-- The first position of a variant. -/
def index? (e : Enumeration) (variant : String) : Option Nat :=
  e.variants.findIdx? (· = variant)

/-- The variant at a position. -/
def variant? (e : Enumeration) (index : Nat) : Option String :=
  e.variants[index]?

end Enumeration

/-- The type of an atom. -/
inductive AtomType where
  | bool
  | int
  | count
  | string
  | addr
  | subnet
  | port
  | enum (e : Enumeration)
  deriving DecidableEq

/-- A value that may key a table. A variant is known by its position. -/
inductive Atom where
  | bool (b : Bool)
  | int (i : Int64)
  | count (c : UInt64)
  | string (s : String)
  | addr (a : Address)
  | subnet (s : Subnet)
  | port (p : Port)
  | enum (index : Nat)
  deriving DecidableEq

namespace AtomType

/-- The word for the kind of a type. -/
def kind : AtomType → String
  | .bool => "bool"
  | .int => "int"
  | .count => "count"
  | .string => "string"
  | .addr => "addr"
  | .subnet => "subnet"
  | .port => "port"
  | .enum _ => "enum"

/-- The text of a type. -/
def render : AtomType → String
  | .enum e => "enum " ++ e.name
  | τ => τ.kind

/-- The atom is one of the type; an enumeration has a variant at its position. -/
def admits : AtomType → Atom → Bool
  | .bool, .bool _ => true
  | .int, .int _ => true
  | .count, .count _ => true
  | .string, .string _ => true
  | .addr, .addr _ => true
  | .subnet, .subnet _ => true
  | .port, .port _ => true
  | .enum e, .enum index => index < e.variants.length
  | _, _ => false

end AtomType

namespace Atom

/-- The word for the kind of an atom. -/
def kind : Atom → String
  | .bool _ => "bool"
  | .int _ => "int"
  | .count _ => "count"
  | .string _ => "string"
  | .addr _ => "addr"
  | .subnet _ => "subnet"
  | .port _ => "port"
  | .enum _ => "enum"

/-- The place of an atom's kind; atoms of one table share it. -/
def rank : Atom → Nat
  | .bool _ => 0
  | .int _ => 1
  | .count _ => 2
  | .string _ => 3
  | .addr _ => 4
  | .subnet _ => 5
  | .port _ => 6
  | .enum _ => 7

/-- The order of atoms, which is the order of table entries. -/
def compare : Atom → Atom → Ordering
  | .bool a, .bool b => Ord.compare a b
  | .int a, .int b => Ord.compare a.toInt b.toInt
  | .count a, .count b => Ord.compare a.toNat b.toNat
  | .string a, .string b => Ord.compare a b
  | .addr a, .addr b => a.compare b
  | .subnet a, .subnet b => a.compare b
  | .port a, .port b => a.compare b
  | .enum a, .enum b => Ord.compare a b
  | a, b => Ord.compare a.rank b.rank

/-- The text of an atom of the given type, with a word for what is none of it. -/
def renderOr (word : String) (τ : AtomType) : Atom → String
  | .bool b => if b then "T" else "F"
  | .int i => Decimal.ofInt i.toInt
  | .count c => Decimal.ofNat c.toNat
  | .string s => s
  | .addr a => a.render
  | .subnet s => s.render
  | .port p => p.render
  | .enum index =>
    match τ with
    | .enum e => (e.variant? index).getD word
    | _ => word

/-- The word for what cannot be written. -/
def invalidWord : String := "<invalid>"

/-- The text of an atom of the given type. -/
def render (τ : AtomType) (a : Atom) : String := a.renderOr invalidWord τ

end Atom

end HostView
