import HostView.Json.Printer
import HostView.Json.Reader

/-!
# The contents of values

What of a script value goes into a document, as a tree. It is written as text, on one line or with
an indent, or read as a JSON document.
-/

namespace HostView.Script

/-- The content of a value. -/
inductive Content where
  | null
  | bool (b : Bool)
  | number (x : Binary64)
  | string (s : ScriptString)
  | array (items : List Content)
  | object (members : List (ScriptString × Content))

namespace Content

/-! ### As JSON -/

/-- The document of a number, as its text reads; what is not finite is null. -/
def numberJson (x : Binary64) : Json :=
  match Json.number? (Notation.script.render x).toList with
  | some (n, _) => if x.isFinite then .number n else .null
  | none => .null

mutual

/-- The content as a document. -/
def toJson : Content → Json
  | .null => .null
  | .bool b => .bool b
  | .number x => numberJson x
  | .string s => .string s
  | .array items => .array (itemsToJson items)
  | .object members => .object (membersToJson members)

/-- Each item as a document. -/
def itemsToJson : List Content → List Json
  | [] => []
  | c :: rest => toJson c :: itemsToJson rest

/-- Each member as a document under its name. -/
def membersToJson : List (ScriptString × Content) → List (ScriptString × Json)
  | [] => []
  | (name, c) :: rest => (name, toJson c) :: membersToJson rest

end

/-! ### As text -/

/-- A unit inside quotes that stands for itself or for a character without a letter of its own. -/
def escapedUnit (u : UInt16) : List UInt16 :=
  if Units.isHigh u || Units.isLow u then (Json.unitEscape u.toNat).flatMap Units.ofChar
  else (Json.escaped (Char.ofNat u.toNat)).flatMap Units.ofChar

/-- Units inside quotes: only the halves of surrogate pairs that stand alone are escaped among those
that are no ASCII. -/
def escaped : List UInt16 → List UInt16
  | [] => []
  | [u] => escapedUnit u
  | u :: v :: rest =>
    if Units.isHigh u && Units.isLow v then u :: v :: escaped rest
    else escapedUnit u ++ escaped (v :: rest)

/-- A string in quotes. -/
def quoted (s : ScriptString) : List UInt16 := 0x22 :: escaped s.units ++ [0x22]

/-- Parts between brackets with commas between them, each on a line of its own if there is an
indent for lines. -/
def bracketed (start finish : UInt16) (gap indent : List UInt16) (parts : List (List UInt16)) :
    List UInt16 :=
  if parts.isEmpty then [start, finish]
  else if gap.isEmpty then start :: [0x2C].intercalate parts ++ [finish]
  else
    let line := 0xA :: indent ++ gap
    start :: line ++ (0x2C :: line).intercalate parts ++ 0xA :: indent ++ [finish]

mutual

/-- The content as text; `gap` is how much each level is indented, and `indent` the indent so far.
-/
def render (gap indent : List UInt16) : Content → List UInt16
  | .null => Units.ofString "null"
  | .bool b => Units.ofString (if b then "true" else "false")
  | .number x => Units.ofString (if x.isFinite then Notation.script.render x else "null")
  | .string s => quoted s
  | .array items => bracketed 0x5B 0x5D gap indent (renderItems gap (indent ++ gap) items)
  | .object members => bracketed 0x7B 0x7D gap indent (renderMembers gap (indent ++ gap) members)

/-- Each item as text. -/
def renderItems (gap indent : List UInt16) : List Content → List (List UInt16)
  | [] => []
  | c :: rest => render gap indent c :: renderItems gap indent rest

/-- Each member as text. -/
def renderMembers (gap indent : List UInt16) :
    List (ScriptString × Content) → List (List UInt16)
  | [] => []
  | (name, c) :: rest =>
    let mark := if gap.isEmpty then [0x3A] else [0x3A, 0x20]
    (quoted name ++ mark ++ render gap indent c) :: renderMembers gap indent rest

end

end Content

end HostView.Script
