import HostView.Proofs.Atomicity
import HostView.Proofs.Exposure.Tables

/-! # How one write to a table ends

A write to a table is made by the host, or by a script through an object that stands for the table.
Whether it succeeds, and what it changes of what the table holds, is told by the key, the types and
the converted value. The change is made last, on what the table holds by then.
-/

namespace HostView.Script

open Discipline

variable {call call' : Caller} {m m' : Machine} {r : Receiver} {s : Ref} {key : AtomType}
  {yieldType : Option HostType} {entries : Entries Entry} {v : Value} {a : Atom} {old n : Nat}
  {fixed : Prop} {P : Policy} {ε α : Type}

/-! ### Endings -/

/-- How a write is to end. -/
structure Ending where
  succeeds : Bool
  change? : Option Change
  /-- The machine on which the change is made, once the value has been converted. -/
  ready : Machine

namespace Ending

def failure (m : Machine) : Ending := ⟨false, none, m⟩

def nothing (m : Machine) : Ending := ⟨true, none, m⟩

def change (c : Change) (m : Machine) : Ending := ⟨true, some c, m⟩

/-- What could be converted is stored at the key. -/
def ofConversion (a : Atom) : Except ConversionFault Ref × Machine → Ending
  | (.ok s, m) => .change (.put a (some s)) m
  | (.error _, m) => .failure m

/-- What is held after the write. -/
def applied (o : Ending) (held : Holding) : Holding :=
  match o.change? with
  | some c => c.apply held
  | none => held

end Ending

/-- A write to a table. -/
inductive TableWrite where
  | assign (k : Ref) (yield : Option Ref)
  | remove (k : Ref)
  | set (target : ObjectId) (k : Key) (v : Value)
  | define (target : ObjectId) (k : Key) (d : Descriptor)
  | delete (target : ObjectId) (k : Key)

namespace TableWrite

/-- Tries the write on the table at a reference: whether it succeeds, and what it leaves. -/
def perform (call : Caller) (m : Machine) (r : Ref) : TableWrite → Bool × Machine
  | assign k yield => (Operation.host (.assign r k yield)).run call m
  | remove k => (Operation.host (.remove r k)).run call m
  | set target k v => m.attempt call (hostSet target k v)
  | define target k d => m.attempt call (hostDefine target k d)
  | delete target k => m.attempt call (hostDelete target k)

end TableWrite

/-! ### Ends -/

/-- An attempt ends as it is to. -/
structure Ending.Meets (o : Ending) (r : Ref) (p : Bool × Machine) : Prop where
  flag : p.1 = o.succeeds
  holding : p.2.heap.holding r = o.applied (o.ready.heap.holding r)

theorem Succeeds.attempt {x : ExceptT ε Effect α} {w : α} (h : Succeeds call m x w m') :
    m.attempt call x = (true, m') := by
  unfold Succeeds at h
  rw [Machine.attempt, h]
  rfl

theorem Fails.attempt {x : ExceptT ε Effect α} (h : Fails call m x m') :
    m.attempt call x = (false, m') := by
  obtain ⟨fault, hfault⟩ := h
  rw [Machine.attempt, hfault]
  rfl

theorem Ending.Meets.failure {x : ExceptT ε Effect α} (h : Fails call m x m') :
    (Ending.failure m').Meets r.value (m.attempt call x) := by
  rw [h.attempt]
  exact ⟨rfl, rfl⟩

theorem Ending.Meets.nothing {x : ExceptT ε Effect α} {w : α} (h : Succeeds call m x w m) :
    (Ending.nothing m).Meets r.value (m.attempt call x) := by
  rw [h.attempt]
  exact ⟨rfl, rfl⟩

theorem Ending.Meets.stored {x : ExceptT ε Effect α} {w : α} {yield : Option Ref}
    (hordered : m'.heap.Ordered) (hcontent : m'.heap.contentOf r.value = .table entries)
    (h : Succeeds call m x w { m' with heap := m'.heap.stored r.value key entries a yield }) :
    (Ending.change (.put a yield) m').Meets r.value (m.attempt call x) := by
  rw [h.attempt]
  exact ⟨rfl, Heap.holding_stored hordered hcontent a yield⟩

variable (hcall : (kin P fixed old).Lawful call) (h : Bridge.Kin P old m.toBridge m.toBridge)

include hcall h

/-- What a conversion leaves is as it may be, and what it gives may be stored there. -/
theorem toHost_leaves {type : HostType} {x : Except ConversionFault Ref}
    (hrun : ((toHost type v).run.run call).run m = (x, m')) :
    m'.heap.WellTyped ∧ Bridge.Leads P fixed old m.toBridge m'.toBridge ∧
      Judged (fun s b => b.heap.Holds type s) ConversionFault.OfValue x m'.toBridge := by
  have hconverts := converts hcall type v m.toEngine m.toBridge m.toBridge h
  have halike := hconverts.alike
  have hleads := hconverts.leads
  have hpost := hconverts.post
  have hrun' : ((toHost type v).run.run call).run ⟨m.toEngine, m.toBridge⟩ = (x, m') := hrun
  rw [hrun'] at halike hleads hpost
  exact ⟨halike.heap.left, hleads, hpost.imp (fun _ hs => hs.holds) fun _ => id⟩

end HostView.Script
