import HostView.Json.Document
import HostView.Script.Syntax
import HostView.Text.Decimal
import HostView.Text.Hexadecimal

/-!
# Scripts as documents

Scripts are written as JSON documents. Null, truth values, strings, numbers and arrays stand for
themselves; every other expression is an object whose one member names what it is and holds its
operands. A statement is an array that begins with the name of what it is.
-/

namespace HostView.Script

/-- The double of which sixteen hexadecimal digits are the word. -/
def wordOf? (s : String) : Option Binary64 :=
  let digits := s.toList
  if digits.length = 16 then (Hexadecimal.ofDigits? digits).map fun n => ⟨.ofNat n⟩ else none

/-- The question or order of a name. -/
def Integrity.ofName? (name : String) : Option Integrity :=
  [Integrity.freeze, .seal, .preventExtensions, .isExtensible, .isFrozen, .isSealed].find?
    (·.name = name)

/-- The text that an expression is. -/
def Expr.text? : Expr → Option String
  | .text (.text s) => some s
  | _ => none

/-- The code unit that an expression is. -/
def Expr.unit? : Expr → Option UInt16
  | .number x => x.toInt?.bind fun i => if 0 ≤ i ∧ i < 2 ^ 16 then some (.ofNat i.toNat) else none
  | _ => none

/-- The key and value that an expression is. -/
def Expr.member? : Expr → Option (Expr × Expr)
  | .array [key, value] => some (key, value)
  | _ => none

namespace Expr

/-- An operation on one expression. -/
def ofOne? (name : String) (e : Expr) : Option Expr :=
  if name = "keys" then some (.ownKeys e)
  else if name = "enum" then some (.names e)
  else if name = "toJSON" then some (.toJson e)
  else if name = "typeof" then some (.typeOf e)
  else if name = "create" then some (.derive e)
  else if name = "spread" then some (.spread e)
  else if name = "proxy" then some (.layer e)
  else none

/-- An expression given by a text. -/
def ofText? (name s : String) : Option Expr :=
  if name = "var" then some (.global s)
  else if name = "big" then (Decimal.signed? s.toList).map .bigInt
  else if name = "sym" then some (.symbol s)
  else if name = "hostile" then some (.hostile s)
  else if name = "newerror" then some (.error s)
  else if name = "func" then some (.function (s = "ctor"))
  else if name = "f64" then (wordOf? s).map .number
  else none

/-- An expression given by a list. -/
def ofList? (name : String) (items : List Expr) : Option Expr :=
  if name = "obj" then (items.mapM Expr.member?).map .object
  else if name = "u16" then (items.mapM Expr.unit?).map fun units => .text (.ofUnits units)
  else
    match items with
    | [a, b] =>
      if name = "get" then some (.get a b)
      else if name = "has" then some (.has a b)
      else if name = "del" then some (.delete a b)
      else if name = "desc" then some (.descriptor a b)
      else if name = "eq" then some (.identical a b)
      else if name = "object" then
        (a.text?.bind Integrity.ofName?).map fun order => .integrity order b
      else if name = "getter" then b.text?.map fun message => .getter a message
      else none
    | [a, b, c] =>
      if name = "assign" then some (.assign a b c)
      else if name = "define" then some (.define a b c)
      else none
    | _ => none

/-- The expression of a name and an operand, which was read as an expression itself. -/
def ofOperand? (name : String) (operand : Expr) : Option Expr :=
  if name = "undef" then some .undefined
  else
    match ofOne? name operand with
    | some e => some e
    | none =>
      match operand with
      | .text (.text s) => ofText? name s
      | .array items => ofList? name items
      | _ => none

mutual

/-- The expression that a document writes. -/
def ofJson? : Json → Option Expr
  | .null => some .null
  | .bool b => some (.bool b)
  | .number n => some (.number n.toBinary64)
  | .string s => some (.text s)
  | .array items => (listOfJson? items).map .array
  | .object [(.text name, operand)] => (ofJson? operand).bind (ofOperand? name)
  | .object _ => none

/-- The expressions that documents write. -/
def listOfJson? : List Json → Option (List Expr)
  | [] => some []
  | j :: rest => do
    let e ← ofJson? j
    return e :: (← listOfJson? rest)

end

end Expr

namespace Stmt

mutual

/-- The statement that a document writes. -/
def ofJson? : Json → Option Stmt
  | .array [.string (.text name), a] =>
    if name = "do" then (Expr.ofJson? a).map .eval
    else if name = "log" then
      match Expr.ofJson? a with
      | some (.array items) => some (.log items)
      | _ => none
    else none
  | .array [.string (.text name), .string (.text target), .array body] =>
    if name = "func" then (listOfJson? body).map (.function target)
    else if name = "let" then (Expr.listOfJson? body).map fun items => .assign target (.array items)
    else none
  | .array [.string (.text name), .array body, .string (.text target)] =>
    if name = "try" then (listOfJson? body).map fun body => .attempt body target else none
  | .array [.string (.text name), .string (.text target), e] =>
    if name = "let" then (Expr.ofJson? e).map (.assign target)
    else if name = "throw" then e.text?.map (.throw target)
    else none
  | .array [.string (.text name), e, .string (.text target), .array body] =>
    if name = "each" then do
      return .each (← Expr.ofJson? e) target (← listOfJson? body)
    else none
  | _ => none

/-- The statements that documents write. -/
def listOfJson? : List Json → Option (List Stmt)
  | [] => some []
  | j :: rest => do
    let s ← ofJson? j
    return s :: (← listOfJson? rest)

end

end Stmt

/-- The script of statements and an expression, either of which may be missing. -/
def Program.ofParts? (body result : Option Json) : Option Program := do
  let body ← Stmt.listOfJson? (← (body.getD (.array [])).items?)
  match result with
  | none => return ⟨body, none⟩
  | some j => return ⟨body, some (← Expr.ofJson? j)⟩

/-- The script that an object writes. -/
def Program.ofJson? (j : Json) : Option Program :=
  Program.ofParts? (j.member? "stmts") (j.member? "expr")

end HostView.Script
