import HostView.Number.Binary64
import HostView.Text.Units

/-!
# Scripts

The language in which scripts are given: expressions over objects and their properties, and
statements. Names are global. Every expression that takes a property takes its key as an
expression, whose value is turned into a key when the property is reached.
-/

namespace HostView.Script

/-- The questions and orders about an object as a whole. -/
inductive Integrity where
  | freeze
  | seal
  | preventExtensions
  | isExtensible
  | isFrozen
  | isSealed
  deriving DecidableEq

/-- The name of a question or order. -/
def Integrity.name : Integrity → String
  | .freeze => "freeze"
  | .seal => "seal"
  | .preventExtensions => "preventExtensions"
  | .isExtensible => "isExtensible"
  | .isFrozen => "isFrozen"
  | .isSealed => "isSealed"

/-- An expression. -/
inductive Expr where
  | undefined
  | null
  | bool (b : Bool)
  | number (x : Binary64)
  | text (s : ScriptString)
  | bigInt (i : Int)
  /-- A symbol of its own, or the one under which iteration is found. -/
  | symbol (description : String)
  | array (items : List Expr)
  | object (members : List (Expr × Expr))
  /-- A global, undefined if there is none. -/
  | global (name : String)
  | get (target key : Expr)
  | has (target key : Expr)
  | delete (target key : Expr)
  | assign (target key value : Expr)
  /-- Defines a property by a descriptor and tells whether that succeeded. -/
  | define (target key descriptor : Expr)
  /-- All keys of an object. -/
  | ownKeys (target : Expr)
  /-- The names of the enumerable properties of an object. -/
  | names (target : Expr)
  | descriptor (target key : Expr)
  | integrity (order : Integrity) (target : Expr)
  /-- Calls the `toJSON` method. -/
  | toJson (target : Expr)
  | typeOf (target : Expr)
  | identical (a b : Expr)
  /-- An empty object that inherits from another. -/
  | derive (proto : Expr)
  /-- A plain object with the enumerable properties of another. -/
  | spread (source : Expr)
  /-- A proxy that forwards everything. -/
  | layer (target : Expr)
  /-- An object of which every read throws. -/
  | hostile (message : String)
  /-- An object with one property, which throws when it is read. -/
  | getter (key : Expr) (message : String)
  | function (constructs : Bool)
  | error (message : String)

/-- The expression is a function, written where it stands. -/
def Expr.isFunction : Expr → Bool
  | .function _ => true
  | _ => false

/-- A statement. -/
inductive Stmt where
  | eval (e : Expr)
  | assign (name : String) (e : Expr)
  | throw (className message : String)
  | log (items : List Expr)
  | function (name : String) (body : List Stmt)
  /-- Runs the body; an error is written to a global and goes no further. -/
  | attempt (body : List Stmt) (name : String)
  /-- Runs the body for each enumerable name of an object. -/
  | each (target : Expr) (name : String) (body : List Stmt)

/-- A script: statements and the expression whose value is its result. -/
structure Program where
  body : List Stmt
  result : Option Expr

end HostView.Script
