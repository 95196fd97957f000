import HostView.Json.Fields
import HostView.Net.Port
import HostView.Net.Subnet

/-!
# Ports and subnets as documents

Ports and subnets are stored as structures, protocols by name. What is read is taken as it stands:
a stored subnet is not checked against the width of its family, nor are the bits of its host
cleared.
-/

namespace HostView

/-- A protocol is stored as its name. -/
def Protocol.toJson (p : Protocol) : Json := .string p.render

/-- The protocol that a document stores: a name, or an object with the name and null. -/
def Protocol.ofJson? : Json → Option Protocol
  | .string (.text s) => (Protocol.parse s).toOption
  | .object [(.text s, .null)] => (Protocol.parse s).toOption
  | _ => none

/-- A port is stored as its number and protocol. -/
def Port.toJson (p : Port) : Json :=
  .ofFields [("number", .number (.natural p.number.toNat)), ("proto", p.protocol.toJson)]

/-- The port that a document stores. -/
def Port.ofJson? (j : Json) : Option Port := do
  let [number, protocol] ← j.fields? ["number", "proto"] | none
  return ⟨.ofNat (← (← number).naturalUpTo? 65535), ← Protocol.ofJson? (← protocol)⟩

/-- A subnet is stored as its network and length. -/
def Subnet.toJson (s : Subnet) : Json :=
  .ofFields [("network", .string s.network.render), ("prefix", .number (.natural s.length))]

/-- The subnet that a document stores. -/
def Subnet.ofJson? (j : Json) : Option Subnet := do
  let [network, length] ← j.fields? ["network", "prefix"] | none
  return ⟨← Address.parse? (← (← network).text?), ← (← length).naturalUpTo? 255⟩

end HostView
