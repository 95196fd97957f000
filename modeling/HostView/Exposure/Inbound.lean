import HostView.Exposure.Outbound
import HostView.Exposure.Receiver

/-!
# Script values as host values

A script value is converted to a given type or refused; nothing is rounded, cut or guessed. A live
value of the very type is not copied: its reference is taken. Everything else is built anew, so a
conversion that fails leaves every value that was there as it was. A fault names the part that
does not convert, with the path to it.
-/

namespace HostView.Script

/-- A conversion may read properties and build host values, and may fail. -/
abbrev Conversion := ExceptT ConversionFault Effect

/-- The part of a conversion that only looks at the script value. -/
abbrev Decoding := ExceptT ConversionFault Turn

variable {α : Type}

/-- Fails because another kind of value was expected. -/
def mismatch (expected : String) (v : Value) : Decoding α := do
  throw (.mismatch expected ((← get).typeName v))

/-- Reads a property; what it throws is a fault of the engine. -/
def readProperty (o : ObjectId) (k : Key) : Decoding Value := do
  match ← (getProperty o k).run with
  | .ok v => return v
  | .error _ => throw (.engine .exception)

/-- Builds a host value. -/
def allocate (make : Heap → Except HostFault (Ref × Heap)) : Conversion Ref := do
  let m ← get
  match make m.heap with
  | .ok (r, heap) => do
    set { m with heap }
    return r
  | .error fault => throw (.host fault)

/-- Changes a host value that is being built. -/
def complete (change : Heap → Except HostFault Heap) : Conversion Unit := do
  let m ← get
  match change m.heap with
  | .ok heap => set { m with heap }
  | .error fault => throw (.host fault)

/-! ### Atoms -/

/-- The whole number that a double is, between two bounds. -/
def wholeBetween (expected target : String) (low high : Int) (x : Binary64) :
    Except ConversionFault Int :=
  match x.toInt? with
  | none => .error (.invalid expected (Notation.host.render x))
  | some i =>
    if low ≤ i ∧ i ≤ high then .ok i else .error (.outOfRange target (Notation.host.render x))

/-- A big integer between two bounds. -/
def bigBetween (target : String) (low high i : Int) : Except ConversionFault Int :=
  if low ≤ i ∧ i ≤ high then .ok i else .error (.outOfRange target (Decimal.ofInt i))

/-- An integer of 64 bits, from a number or a big integer. -/
def intOf (v : Value) : Decoding Int64 :=
  match v.number?, v with
  | some x, _ => return .ofInt (← wholeBetween "integer" "int" (-2 ^ 63) (2 ^ 63 - 1) x)
  | none, .bigInt i => return .ofInt (← bigBetween "int" (-2 ^ 63) (2 ^ 63 - 1) i)
  | none, _ => mismatch "integer" v

/-- A count, from a number up to the last exact one or from a big integer. -/
def countOf (v : Value) : Decoding UInt64 :=
  match v.number?, v with
  | some x, _ => return .ofNat (← wholeBetween "non-negative integer" "count" 0 safeLimit x).toNat
  | none, .bigInt i => return .ofNat (← bigBetween "count" 0 (2 ^ 64 - 1) i).toNat
  | none, _ => mismatch "non-negative integer" v

/-- The text of a string. -/
def textOf (expected : String) : Value → Decoding String
  | .string (.text s) => return s
  | .string (.illFormed u) => throw (.engine (.illFormed u.index))
  | v => mismatch expected v

/-- What the text of a string is a literal of. -/
def literalOf (expected : String) (read? : String → Option α) (v : Value) : Decoding α := do
  let s ← textOf expected v
  match read? s with
  | some a => return a
  | none => throw (.invalid expected s)

/-- An object that is neither an array nor a function. -/
def plainObject (expected : String) (v : Value) : Decoding ObjectId := do
  let m ← get
  match v with
  | .object o => if m.isArray o || (m.callable? o).isSome then mismatch expected v else return o
  | _ => mismatch expected v

/-- A port, from its literal or from an object with its number and its protocol. -/
def portOf (v : Value) : Decoding Port :=
  match v with
  | .string _ => literalOf portForm (fun s => (Port.parse s).toOption) v
  | _ => do
    let o ← plainObject portForm v
    let n ← readProperty o (.name "port")
    match n.number? with
    | none => mismatch "port number" n
    | some x => do
      let number ← wholeBetween "port number" "port" 0 65535 x
      let protocol ← readProperty o (.name "proto")
      return ⟨.ofNat number.toNat,
        ← literalOf "transport protocol" (fun s => (Protocol.parse s).toOption) protocol⟩

/-- An atom of the given type. -/
def atomOf (τ : AtomType) (v : Value) : Decoding Atom :=
  match τ with
  | .bool =>
    match v with
    | .bool b => return .bool b
    | _ => mismatch "boolean" v
  | .int => return .int (← intOf v)
  | .count => return .count (← countOf v)
  | .string => return .string (← textOf "string" v)
  | .addr => return .addr (← literalOf "IP address string" Address.parse? v)
  | .subnet => return .subnet (← literalOf "subnet string" (fun s => (Subnet.parse s).toOption) v)
  | .port => return .port (← portOf v)
  | .enum e => return .enum (← literalOf ("variant of enum " ++ e.name) e.index? v)

/-! ### Values -/

/-- The host value behind an object, if it is of the very type. -/
def heldOf? (type : HostType) : Value → Conversion (Option Ref)
  | .object o => do
    match ← unwrapValue o with
    | some r => return if ((← get).heap.typeOf r).same type then some r else none
    | none => return none
  | _ => return none

/-- The host value of the very type behind an object, or else one built by a conversion. -/
def heldOr (type : HostType) (v : Value) (convert : Conversion Ref) : Conversion Ref := do
  match ← heldOf? type v with
  | some r => return r
  | none => convert

/-- A host value that is an atom. -/
def newAtom (τ : AtomType) (a : Atom) : Conversion Ref :=
  allocate fun h => h.new (.atom τ) (.atom a)

/-- A value of an atomic type. -/
def atomToHost (τ : AtomType) (v : Value) : Conversion Ref :=
  heldOr (.atom τ) v do newAtom τ (← atomOf τ v)

/-- A member of a set: a string is read as the name of a key, other values are converted. -/
def memberToHost (τ : AtomType) : Value → Conversion Ref
  | .string s => do newAtom τ (← τ.keyOfName (← textOf "string" (.string s)))
  | v => atomToHost τ v

/-- An array, or a row of proxies before one. -/
def arrayOf (v : Value) : Decoding ObjectId := do
  let m ← get
  match v with
  | .object o => if m.isArray o then return o else mismatch "array" v
  | _ => mismatch "array" v

/-- Runs a conversion of a part, to whose faults the way to the part is added. -/
def inPart (path : ConversionFault → ConversionFault) (convert : Conversion α) : Conversion α :=
  ExceptT.adapt path convert

/-- Runs a conversion for each index and item of an array, whose length is read once. -/
def forItems (o : ObjectId) (convert : Nat → Value → Conversion Unit) : Conversion Unit := do
  match ← readProperty o (.name "length") with
  | .int length =>
    (List.range length.toNatClampNeg).forM fun index => do
      convert index (← readProperty o (.name (Decimal.ofNat index)))
  | _ => return ()

/-- Runs a conversion for each enumerable name of an object, which are listed once. -/
def forNames (o : ObjectId) (convert : String → Conversion Unit) : Conversion Unit := do
  match ← (enumerableNames o).run with
  | .error _ => throw (.engine .exception)
  | .ok names =>
    names.forM fun
      | .text name => convert name
      | .illFormed u => throw (.engine (.illFormed u.index))

mutual

/-- Converts a script value to a host value of the given type. -/
def toHost : HostType → Value → Conversion Ref
  | .atom τ, v => atomToHost τ v
  | .real kind, v =>
    heldOr (.real kind) v do
      match v.number? with
      | some x => allocate fun h => h.new (.real kind) (.real kind x)
      | none => mismatch "number" v
  | .record descriptor name fields, v =>
    heldOr (.record descriptor name fields) v do
      let o ← plainObject "object" v
      let r ← allocate fun h => h.newRecord (.record descriptor name fields)
      fillFields o name r 0 fields
      return r
  | .table key none, v =>
    heldOr (.table key none) v do
      let r ← allocate fun h => h.newTable (.table key none)
      let o ← arrayOf v
      forItems o fun index item => do
        let member ← inPart (.inElement index) (memberToHost key item)
        complete fun h => h.tableAssign r member none
      return r
  | .table key (some yield), v =>
    heldOr (.table key (some yield)) v do
      let r ← allocate fun h => h.newTable (.table key (some yield))
      let o ← plainObject "object" v
      forNames o fun name => do
        let a ← inPart (.inKey name) (liftM (key.keyOfName name))
        let k ← newAtom key a
        let item ← readProperty o (.name name)
        let converted ← inPart (.inKey name) (toHost yield item)
        complete fun h => h.tableAssign r k (some converted)
      return r
  | .vector element, v =>
    heldOr (.vector element) v do
      let r ← allocate fun h => h.newVector (.vector element)
      let o ← arrayOf v
      forItems o fun index item => do
        let converted ← inPart (.inElement index) (toHost element item)
        complete fun h => h.vectorPush r converted
      return r

/-- Converts the properties of an object to the fields of a record from `offset` on. -/
def fillFields (o : ObjectId) (record : String) (r : Ref) (offset : Nat) :
    List (Field HostType) → Conversion Unit
  | [] => return ()
  | ⟨name, type, attributes⟩ :: fields => do
    let v ← readProperty o (.name name)
    if v.isPresent then
      let converted ← inPart (.inField name) (toHost type v)
      complete fun h => h.setField r offset (some converted)
      fillFields o record r (offset + 1) fields
    else if attributes.isOptional then fillFields o record r (offset + 1) fields
    else throw (.missingField record name)

end

end HostView.Script
