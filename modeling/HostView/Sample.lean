import HostView.Host.Heap

/-!
# A sample connection

A record of a network connection with every kind of field: nested records, tables, sets, variants
and fields that may be unset. It is what the command line hands to a script.
-/

namespace HostView.Sample

/-- The end points of a connection. -/
def endpointsType (descriptor : Nat) : HostType :=
  .record descriptor "conn_id"
    [⟨"orig_h", .atom .addr, .log⟩, ⟨"orig_p", .atom .port, .log⟩,
      ⟨"resp_h", .atom .addr, .log⟩, ⟨"resp_p", .atom .port, .log⟩]

/-- The states of a connection. -/
def stateType : HostType := .atom (.enum ⟨"Conn::State", ["S0", "S1", "SF", "REJ"]⟩)

/-- The labels of a connection. -/
def tagsType : HostType := .table .string none

/-- The bytes sent by each host. -/
def bytesType : HostType := .table .addr (some (.atom .count))

/-- A connection. Its two record types have the given descriptor and the one after it. -/
def connectionType (descriptor : Nat) : HostType :=
  .record descriptor "Conn::Info"
    [⟨"ts", .real .time, .log⟩, ⟨"uid", .atom .string, .log⟩,
      ⟨"id", endpointsType (descriptor + 1), .log⟩,
      ⟨"duration", .real .interval, .log ||| .optional⟩,
      ⟨"orig_bytes", .atom .count, .log ||| .optional⟩,
      ⟨"conn_state", stateType, .log ||| .optional⟩, ⟨"history", .atom .string, .optional⟩,
      ⟨"tags", tagsType, .log ||| .optional⟩, ⟨"bytes_by_host", bytesType, .optional⟩]

/-- Builds host values. -/
abbrev Builder (α : Type) := StateT Heap (Except HostFault) α

/-- Makes a value. -/
def make (f : Heap → Except HostFault (Ref × Heap)) : Builder Ref := fun h => f h

/-- Changes a value. -/
def change (f : Heap → Except HostFault Heap) : Builder Unit := fun h => (f h).map ((), ·)

/-- An atom. -/
def atom (type : AtomType) (a : Atom) : Builder Ref :=
  make fun h => h.new (.atom type) (.atom a)

/-- A real number. -/
def real (kind : RealKind) (x : Binary64) : Builder Ref :=
  make fun h => h.new (.real kind) (.real kind x)

/-- An address of four octets. -/
def host (a b c d : Nat) : Address := .v4 (.ofNat 32 (((a * 256 + b) * 256 + c) * 256 + d))

/-- Sets a field of a record. -/
def set (record : Ref) (name : String) (value : Builder Ref) : Builder Unit := do
  let v ← value
  change fun h => h.setFieldByName record name (some v)

/-- Enters the bytes sent by a host. -/
def enterBytes (table : Ref) (address : Address) (bytes : UInt64) : Builder Unit := do
  let key ← atom .addr (.addr address)
  let yield ← atom .count (.count bytes)
  change fun h => h.tableAssign table key (some yield)

/-- The end points of the sample. -/
def endpoints (descriptor : Nat) : Builder Ref := do
  let r ← make fun h => h.newRecord (endpointsType descriptor)
  set r "orig_h" (atom .addr (.addr (host 10 0 0 7)))
  set r "orig_p" (atom .port (.port ⟨51234, .tcp⟩))
  set r "resp_h" (atom .addr (.addr (host 93 184 216 34)))
  set r "resp_p" (atom .port (.port ⟨443, .tcp⟩))
  return r

/-- The labels of the sample. -/
def tags : Builder Ref := do
  let r ← make fun h => h.newTable tagsType
  let member ← atom .string (.string "tls")
  change fun h => h.tableAssign r member none
  return r

/-- The bytes of the sample. -/
def bytesByHost : Builder Ref := do
  let r ← make fun h => h.newTable bytesType
  enterBytes r (host 10 0 0 7) 1834
  enterBytes r (host 93 184 216 34) 5120
  return r

/-- The sample connection. -/
def connection (descriptor : Nat) : Builder Ref := do
  let r ← make fun h => h.newRecord (connectionType descriptor)
  set r "ts" (real .time (.nearest 3400000001 2))
  set r "uid" (atom .string (.string "CjhGID4nQcgTWjvg4c"))
  set r "id" (endpoints (descriptor + 1))
  set r "duration" (real .interval (.nearest 11 4))
  set r "orig_bytes" (atom .count (.count 1834))
  set r "conn_state" (make fun h => h.newVariant stateType "SF")
  set r "history" (atom .string (.string "ShADadFf"))
  set r "tags" tags
  set r "bytes_by_host" bytesByHost
  return r

end HostView.Sample
