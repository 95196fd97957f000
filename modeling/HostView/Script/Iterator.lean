import HostView.Script.Builtin

/-!
# Iterators

What the iterators of the engine go through, and how far they have come.
-/

namespace HostView.Script

/-- What an iterator makes of another one. -/
inductive Staging where
  /-- Leaves the first members out. -/
  | drop
  /-- Gives the first members only. -/
  | take
  /-- Gives the members for which a function gives truth. -/
  | filter
  /-- Gives what a function gives for each member. -/
  | map
  /-- Gives the members of what a function gives for each member. -/
  | flatMap
  deriving DecidableEq

/-- An iterator that is made of another one. -/
structure Stage where
  staging : Staging
  /-- The iterator that it is made of, and the method that gives the members of that. -/
  source : ObjectId
  next : Value
  /-- The function that is called for each member. -/
  function : Value
  /-- The iterator over what the function gave last. -/
  inner : Option ObjectId
  /-- How many members are still to be left out or given, or were passed to the function. -/
  count : Nat
  running : Bool
  finished : Bool

/-- An iterator of the engine. -/
inductive Iterator where
  /-- Goes through the items of an object from an index on; through none after the last one. -/
  | items (object : Option ObjectId) (part : MemberPart) (index : Nat)
  /-- Goes through the characters of a text, of which these units are left. -/
  | characters (rest : List UInt16)
  /-- Goes through what a pattern finds in a text. -/
  | finds (pattern : ObjectId) (text : ScriptString) (everywhere unicode finished : Bool)
  | stage (s : Stage)
  /-- Stands before another iterator, of which this is the method that gives its members. -/
  | wrapped (iterator next : Value)

end HostView.Script
