import HostView.Net.Literal
import HostView.Text.Decimal

/-!
# Transport ports

A port is a 16-bit number with a transport protocol, written `number/protocol`. The text is split
at its first slash, so a fault before it hides one after it.
-/

namespace HostView

/-- A transport protocol, in the order in which ports of one number are sorted. -/
inductive Protocol where
  | tcp
  | udp
  | icmp
  | unknown
  deriving DecidableEq

namespace Protocol

/-- The name of a protocol. -/
def render : Protocol → String
  | .tcp => "tcp"
  | .udp => "udp"
  | .icmp => "icmp"
  | .unknown => "unknown"

/-- The protocol of a name. -/
def parse (s : String) : Except LiteralFault Protocol :=
  if s = "tcp" then .ok .tcp
  else if s = "udp" then .ok .udp
  else if s = "icmp" then .ok .icmp
  else if s = "unknown" then .ok .unknown
  else .error (.protocol s)

/-- The place of a protocol in their order. -/
def rank : Protocol → Nat
  | .tcp => 0
  | .udp => 1
  | .icmp => 2
  | .unknown => 3

end Protocol

/-- A transport port. -/
structure Port where
  number : UInt16
  protocol : Protocol
  deriving DecidableEq

namespace Port

/-- The literal of a port. -/
def render (p : Port) : String :=
  Decimal.ofNat p.number.toNat ++ "/" ++ p.protocol.render

/-- The port that a literal writes. -/
def parse (s : String) : Except LiteralFault Port :=
  match splitSlash? s with
  | none => .error (.port s)
  | some (number, protocol) =>
    match Decimal.natural? 65535 number with
    | none => .error (.port s)
    | some n => (Protocol.parse protocol).map fun p => ⟨.ofNat n, p⟩

/-- Ports are sorted by number, then by protocol. -/
def compare (a b : Port) : Ordering :=
  (Ord.compare a.number.toNat b.number.toNat).then (Ord.compare a.protocol.rank b.protocol.rank)

end Port

end HostView
