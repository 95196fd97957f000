import HostView.Net.Address
import HostView.Net.Literal

/-!
# Subnets

A subnet is a network address with the number of leading bits that its members share.
`Subnet.make` is the checked way to build one: it bounds the length by the width of the family and
clears the bits of the host. The fields themselves promise nothing, because a subnet may also be
read from a document as it stands.
-/

namespace HostView

/-- A network address and a length in bits. -/
structure Subnet where
  network : Address
  length : Nat
  deriving DecidableEq

namespace Subnet

/-- How many bits are left for the host, by which the mask is shifted; none if the length is larger
than the width, where the difference does not exist. -/
def hostBits? (width length : Nat) : Option Nat :=
  if length ≤ width then some (width - length) else none

/-- The bits of an address, of which the leading `length` are kept and the others cleared. Where the
difference does not exist it is computed all the same, modulo `2 ^ 32`: it is then larger than
every width, and no bit is kept. -/
def keep {width : Nat} (bits : BitVec width) (length : Nat) : BitVec width :=
  match hostBits? width length with
  | some count => bits &&& (BitVec.allOnes width <<< count)
  | none => .zero width

/-- An address without the bits after the first `length`. -/
def mask (address : Address) (length : Nat) : Address :=
  match address with
  | .v4 bits => .v4 (keep bits length)
  | .v6 bits => .v6 (keep bits length)

/-- The subnet of an address and a length. -/
def make (address : Address) (length : Nat) : Except LiteralFault Subnet :=
  if address.width < length then .error (.tooLong length address.width)
  else .ok ⟨mask address length, length⟩

/-- An address belongs to a subnet of its own family if it has the same leading bits. -/
def contains (s : Subnet) (address : Address) : Bool :=
  address.sameFamily s.network && mask address s.length = s.network

/-- The literal of a subnet. -/
def render (s : Subnet) : String :=
  s.network.render ++ "/" ++ Decimal.ofNat s.length

/-- The subnet that a literal writes. -/
def parse (s : String) : Except LiteralFault Subnet :=
  match splitSlash? s with
  | none => .error (.subnet s)
  | some (address, length) =>
    match Address.parse? address with
    | none => .error (.subnet s)
    | some a =>
      match Decimal.natural? 255 length with
      | none => .error (.subnet s)
      | some n => make a n

/-- Subnets are sorted by network, then by length. -/
def compare (a b : Subnet) : Ordering :=
  (a.network.compare b.network).then (Ord.compare a.length b.length)

end Subnet

end HostView
