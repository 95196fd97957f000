import HostView.Attribute
import HostView.Host.Heap

/-!
# The ledger of wraps

A wrap lets scripts hold a host value. It is constructed, becomes live when it is attached to a
script object, and is released once: only then does it give up the host value. The ledger keeps
every wrap that was ever made and counts, as long as the bridge exists, how many became live and
how many live ones were released.
-/

namespace HostView

/-- How a wrapped value appears to scripts: as a live record, a live table, or a bare token. -/
inductive WrapKind where
  | record
  | table
  | bare
  deriving DecidableEq

/-- The kind of wrap that a type of values gets. -/
def WrapKind.of : HostType → WrapKind
  | .record .. => .record
  | .table .. => .table
  | _ => .bare

/-- The stages in the life of a wrap, in their order. -/
inductive WrapState where
  | constructed
  | live
  | released
  deriving DecidableEq

/-- A wrap. -/
structure Wrap where
  /-- The host value, until the wrap is released. -/
  value : Option Ref
  mask : Mask
  kind : WrapKind
  state : WrapState
  deriving DecidableEq

/-- The number of a wrap in the ledger. -/
abbrev WrapId := Nat

/-- All wraps, and the counts that the bridge keeps. -/
structure Ledger where
  wraps : Array Wrap
  /-- The bridge still exists, so changes are counted. -/
  attached : Bool
  created : Nat
  released : Nat

namespace Ledger

/-- No wraps, under a new bridge. -/
def empty : Ledger := ⟨#[], true, 0, 0⟩

/-- The wrap of the given number. -/
def wrap? (l : Ledger) (w : WrapId) : Option Wrap := l.wraps[w]?

/-- A new wrap, not yet attached to an object. -/
def construct (l : Ledger) (value : Ref) (mask : Mask) (kind : WrapKind) : WrapId × Ledger :=
  (l.wraps.size, { l with wraps := l.wraps.push ⟨some value, mask, kind, .constructed⟩ })

/-- The wrap was attached to an object: it becomes live, unless it is so or was released. -/
def attach (l : Ledger) (w : WrapId) : Ledger :=
  match l.wraps[w]? with
  | some ⟨_, _, _, .constructed⟩ =>
    { l with
      wraps := l.wraps.modify w fun wrap => { wrap with state := .live }
      created := if l.attached then l.created + 1 else l.created }
  | _ => l

/-- The wrap gives up its host value; only the first time this has an effect, which is returned.
-/
def release (l : Ledger) (w : WrapId) : Bool × Ledger :=
  match l.wraps[w]? with
  | none | some ⟨_, _, _, .released⟩ => (false, l)
  | some wrap =>
    (true,
      { l with
        wraps := l.wraps.modify w fun wrap => { wrap with value := none, state := .released }
        released := if l.attached && wrap.state = .live then l.released + 1 else l.released })

/-- The bridge is gone: wraps go on, but nothing is counted any more. -/
def detach (l : Ledger) : Ledger := { l with attached := false }

/-- How many wraps are live. -/
def liveCount (l : Ledger) : Nat := l.wraps.countP (·.state = .live)

/-- How many wraps hold the host value. -/
def holders (l : Ledger) (value : Ref) : Nat := l.wraps.countP (·.value = some value)

end Ledger

end HostView
