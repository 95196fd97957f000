import HostView.Number.Binary64
import HostView.Text.Units

/-!
# Documents

JSON documents as trees. An object keeps its members in the order in which they were written, and
a name may occur twice: what a repeated name means is for the reader of the document to say.
Strings may hold lone surrogates, which an escape can write; whoever needs text refuses them.
-/

namespace HostView

namespace Json

/-- A number: whole numbers of 64 bits are kept as such, all others as the double they are read
as. -/
inductive Number where
  | natural (n : Nat)
  /-- The number `-(n + 1)`. -/
  | negative (n : Nat)
  | real (x : Binary64)
  deriving DecidableEq

/-- The double that a number is nearest to. -/
def Number.toBinary64 : Number → Binary64
  | .natural n => .ofNat n
  | .negative n => .ofInt (.negSucc n)
  | .real x => x

end Json

/-- A JSON document. -/
inductive Json where
  | null
  | bool (b : Bool)
  | number (n : Json.Number)
  | string (s : ScriptString)
  | array (items : List Json)
  | object (members : List (ScriptString × Json))

namespace Json

/-- The text of a well-formed string. -/
def text? : Json → Option String
  | .string (.text s) => some s
  | _ => none

/-- The value of a whole number that is not negative. -/
def natural? : Json → Option Nat
  | .number (.natural n) => some n
  | _ => none

/-- The value of a whole number between zero and a limit. -/
def naturalUpTo? (limit : Nat) (j : Json) : Option Nat :=
  j.natural?.filter (· ≤ limit)

/-- The truth value of a document. -/
def bool? : Json → Option Bool
  | .bool b => some b
  | _ => none

/-- The items of an array. -/
def items? : Json → Option (List Json)
  | .array items => some items
  | _ => none

/-- The members of an object. -/
def members? : Json → Option (List (ScriptString × Json))
  | .object members => some members
  | _ => none

/-- The first member of the given name. -/
def member? (j : Json) (name : String) : Option Json :=
  (j.members?.getD []).lookup (.text name)

end Json

end HostView
