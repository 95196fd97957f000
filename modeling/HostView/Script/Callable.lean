import HostView.Attribute
import HostView.Host.Heap
import HostView.Script.Builtin

/-!
# Functions

What a function is made of: the body that a script gave it, a method of the bridge, or one of the
functions of the engine.
-/

namespace HostView.Script

/-- The questions to live values, and their changes. -/
inductive Trap where
  | get
  | set
  | has
  | delete
  /-- Lists the keys. -/
  | list
  /-- Describes the property at a key. -/
  | describe
  | define
  /-- Takes no new properties from then on. -/
  | close
  deriving DecidableEq

namespace Trap

/-- All of them, in the order in which the handler has them. -/
def all : List Trap := [.get, .set, .has, .delete, .list, .describe, .define, .close]

/-- The name under which a proxy looks for the method. -/
def name : Trap → String
  | .get => "get"
  | .set => "set"
  | .has => "has"
  | .delete => "deleteProperty"
  | .list => "ownKeys"
  | .describe => "getOwnPropertyDescriptor"
  | .define => "defineProperty"
  | .close => "preventExtensions"

end Trap

/-- What a function does when it is called. -/
inductive Callable where
  /-- Runs statements and returns `undefined`. -/
  | scripted (body : List Stmt)
  /-- Answers for the live values of the bridge. -/
  | trap (t : Trap)
  /-- Returns a snapshot, whose host value and mask the bridge keeps under the number. -/
  | snapshot (number : Nat)
  /-- Writes its arguments to the console. -/
  | console
  /-- Calls another function on a fixed value, with fixed arguments before the others. -/
  | bound (function : ObjectId) (this : Value) (arguments : List Value)
  | builtin (b : Builtin)

end HostView.Script
