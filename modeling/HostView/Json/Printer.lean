import HostView.Json.Document
import HostView.Number.Notation
import HostView.Text.Hexadecimal

/-!
# Writing documents

Two layouts of the same tokens: on one line without blanks, and over several lines with an indent
of two blanks for each level. The second sorts the members of an object by name.
-/

namespace HostView.Json

/-- The escape of a code unit by its four hexadecimal digits. -/
def unitEscape (n : Nat) : List Char :=
  '\\' :: 'u' :: [n / 4096, n / 256, n / 16, n].map fun d => Hexadecimal.char (d % 16)

/-- A character inside quotes. -/
def escaped (c : Char) : List Char :=
  if c = '"' then ['\\', '"']
  else if c = '\\' then ['\\', '\\']
  else if c = '\x08' then ['\\', 'b']
  else if c = '\x0c' then ['\\', 'f']
  else if c = '\n' then ['\\', 'n']
  else if c = '\r' then ['\\', 'r']
  else if c = '\t' then ['\\', 't']
  else if c.toNat < 0x20 then unitEscape c.toNat
  else [c]

/-- A string in quotes. Units that are no text are all escaped. -/
def quoted : ScriptString → String
  | .text s => String.ofList ('"' :: s.toList.flatMap escaped ++ ['"'])
  | .illFormed u => String.ofList ('"' :: u.units.flatMap (fun n => unitEscape n.toNat) ++ ['"'])

/-- The text of a number. -/
def Number.render : Number → String
  | .natural n => HostView.Decimal.ofNat n
  | .negative n => HostView.Decimal.ofInt (.negSucc n)
  | .real x => Notation.document.render x

mutual

/-- The document on one line. -/
def compact : Json → String
  | .null => "null"
  | .bool b => if b then "true" else "false"
  | .number n => n.render
  | .string s => quoted s
  | .array items => "[" ++ ",".intercalate (compactItems items) ++ "]"
  | .object members => "\x7b" ++ ",".intercalate (compactMembers members) ++ "\x7d"

/-- Each item on one line. -/
def compactItems : List Json → List String
  | [] => []
  | j :: rest => compact j :: compactItems rest

/-- Each member on one line. -/
def compactMembers : List (ScriptString × Json) → List String
  | [] => []
  | (name, j) :: rest => (quoted name ++ ":" ++ compact j) :: compactMembers rest

end

/-- The order of names. -/
def nameLE (a b : ScriptString) : Bool :=
  match a, b with
  | .text s, .text t => s ≤ t
  | a, b => a.units ≤ b.units

/-- Puts a name before the first of some lines. -/
def labelled (name : ScriptString) : List String → List String
  | [] => []
  | first :: rest => (quoted name ++ ": " ++ first) :: rest

/-- Puts a comma after the last of some lines. -/
def withComma : List String → List String
  | [] => []
  | [last] => [last ++ ","]
  | first :: rest => first :: withComma rest

/-- Blocks of lines, indented and separated by commas. -/
def separated : List (List String) → List String
  | [] => []
  | [block] => block.map ("  " ++ ·)
  | block :: rest => withComma (block.map ("  " ++ ·)) ++ separated rest

mutual

/-- The lines of a document; the first has no indent and the others `level` more. -/
def lines : Json → List String
  | .array (j :: rest) => "[" :: itemLines (j :: rest) ++ ["]"]
  | .object (m :: rest) =>
    let blocks := (memberLines (m :: rest)).mergeSort fun a b => nameLE a.1 b.1
    "\x7b" :: separated (blocks.map (·.2)) ++ ["\x7d"]
  | j => [compact j]

/-- The lines of all items, indented and separated by commas. -/
def itemLines : List Json → List String
  | [] => []
  | [j] => (lines j).map ("  " ++ ·)
  | j :: rest => withComma ((lines j).map ("  " ++ ·)) ++ itemLines rest

/-- The lines of each member, under its name. -/
def memberLines : List (ScriptString × Json) → List (ScriptString × List String)
  | [] => []
  | (name, j) :: rest => (name, labelled name (lines j)) :: memberLines rest

end

/-- The document over several lines. -/
def pretty (j : Json) : String :=
  "\n".intercalate (lines j)

end HostView.Json
