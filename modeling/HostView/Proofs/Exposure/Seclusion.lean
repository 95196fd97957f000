import HostView.Proofs.Exposure.Composites
import HostView.Proofs.Host.Acyclic
import HostView.Proofs.Script.Calls

/-! # Host values that nothing leads to

A host value that a conversion makes is secluded until the conversion ends: no wrap, no function that
takes snapshots and no other host value leads to it. A script that runs while the parts are converted
cannot come by it, so it stays as it is but for what the conversion itself stores there.
-/

namespace HostView

/-- All values but one may be known and shown. -/
def Policy.without (r : Ref) : Policy where
  Knows v := v ≠ r
  Shows v _ _ := v ≠ r
  knows := id
  part _ _ _ := id

namespace Script

open Discipline

variable {P : Policy} {old n : Nat} {m m₁ m₂ m' : Machine} {type : HostType} {r s : Ref} {v : Value}
  {key : AtomType} {text : String} {k : Ref} {c : HostView.Content} {ε α : Type}

/-- Nothing leads to the value, and all else is as it is to be. -/
def Machine.Secludes (m : Machine) (r : Ref) : Prop :=
  Bridge.Kin (.without r) (r + 1) m.toBridge m.toBridge

/-- The value that was secluded still is, and nothing has touched it. -/
structure Machine.Spares (m m' : Machine) (r : Ref) : Prop where
  secludes : m'.Secludes r
  cell_eq : m'.heap.cell r = m.heap.cell r
  grows : m.heap.Extends m'.heap
  ordered : m.heap.Ordered → m'.heap.Ordered

theorem Machine.Spares.trans (h : m.Spares m₁ r) (h' : m₁.Spares m' r) : m.Spares m' r where
  secludes := h'.secludes
  cell_eq := h'.cell_eq.trans h.cell_eq
  grows := h.grows.trans h'.grows
  ordered := h'.ordered ∘ h.ordered

namespace Machine.Secludes

theorem lt (h : m.Secludes r) : r < m.heap.cells.size :=
  Nat.lt_of_succ_le h.old_le

/-- A value that has just been made is secluded. -/
theorem opened (h : Bridge.Kin P old m.toBridge m.toBridge)
    (hcheck : Heap.checkContent type type.blank = .ok ()) (hblank : type.blank.Blank) :
    (m.opened type).Secludes m.heap.cells.size where
  heap := (h.heap.left.alloc (Heap.fits_of_checkContent hcheck hblank)).kin
  rest := rfl
  wraps w wrap hw := by
    refine ⟨⟨m.heap.cells.size + 1, default, Nat.succ_ne_self _⟩, fun v hv => ?_⟩
    have hlt := ((h.wraps w wrap hw).2 v hv).1
    exact ⟨by simpa [Machine.opened] using Nat.lt_succ_of_lt hlt, Nat.ne_of_lt hlt⟩
  snapshots p hp := by
    have hlt := (h.snapshots p hp).1
    exact ⟨by simpa [Machine.opened] using Nat.lt_succ_of_lt hlt, Nat.ne_of_lt hlt⟩
  known s v hs hv := by
    -- what refers to something was there before, and so was what it refers to
    have hold : (m.heap.contentOf s).RefersTo v := by
      have hcell := Heap.cell_alloc (h := m.heap) ⟨type, type.blank⟩ (r := s)
      rw [if_neg hs] at hcell
      simpa only [Machine.opened, Heap.contentOf, hcell] using hv
    obtain ⟨σ, -, hholds⟩ := h.heap.left.holds_part hold
    exact Nat.ne_of_lt hholds.lt
  fresh v hv := Nat.ne_of_gt hv
  old_le := by simp [Machine.opened]
  integers := h.integers

/-- Whatever a step does that keeps what scripts keep, the value is spared. -/
theorem spares {a : ExceptT ε Effect α} {post : α → Bridge → Prop} {blame : ε → Prop} {w : α}
    (ha : (kin (.without r) False (r + 1)).Agrees (invoke n) m.toEngine m.toBridge m.toBridge a a post
      blame) (hrun : Succeeds (invoke n) m a w m') : m.Spares m' r ∧ post w m'.toBridge := by
  have halike := ha.alike
  have hleads := ha.leads
  have hpost := ha.post
  have hrun' : (a.run.run (invoke n)).run ⟨m.toEngine, m.toBridge⟩ = (.ok w, m') := hrun
  rw [hrun'] at halike hleads hpost
  have hapart : m'.heap.cell r = m.heap.cell r :=
    hleads.apart r (Nat.lt_succ_self r) fun _ hne => hne rfl
  exact ⟨⟨halike, hapart, hleads.grows, hleads.ordered⟩, hpost⟩

theorem routine (h : m.Secludes r) {a : ExceptT ε Turn α} {w : α} (hrun : Gives (invoke n) m a w m') :
    m.Spares m' r :=
  (spares (.routine (invoke_lawful _ _ n) h a) (Succeeds.routine hrun)).1

theorem conversion (h : m.Secludes r) (hrun : Succeeds (invoke n) m (toHost type v) s m') :
    m.Spares m' r ∧ m'.heap.Holds type s := by
  obtain ⟨hspares, hobtained⟩ := spares (converts (invoke_lawful _ _ n) type v _ _ _ h) hrun
  exact ⟨hspares, hobtained.holds⟩

/-- A name that is a key becomes a new atom. -/
theorem keyOfName (h : m.Secludes r) (hrun : Succeeds (invoke n) m (Piece.name key text).convert k m') :
    ∃ a, key.keyOfName text = .ok a ∧ m.Spares m' r ∧ m'.heap.Holds (.atom key) k ∧
      m'.heap.contentOf k = .atom a := by
  obtain ⟨a, m₁, hread, hnew⟩ := succeeds_bind_iff.mp hrun
  obtain ⟨hname, rfl⟩ := succeeds_except_iff.mp hread
  have hadmits := AtomType.admits_of_keyOfName hname
  have hagrees : (kin (.without r) False (r + 1)).Agrees (invoke n) m.toEngine m.toBridge m.toBridge
      (newAtom key a) (newAtom key a) _ fun _ => True := newAtom_agrees h hadmits
  obtain ⟨hspares, hobtained⟩ := spares hagrees hnew
  obtain ⟨rfl, rfl⟩ := hnew.unique (new_gives (Heap.checkContent_atom hadmits))
  refine ⟨a, hname, hspares, hobtained.holds, ?_⟩
  rw [Heap.contentOf, Heap.cell_alloc_self]

/-- What is stored in the value does not lead a script to it. -/
theorem update (h : m.Secludes r) (hgrows : m.heap.Extends (m.heap.update r c))
    (hwell : (m.heap.update r c).WellTyped) : Machine.Secludes { m with heap := m.heap.update r c } r :=
  h.setHeap hwell.kin hgrows fun s v hs hv => by
    rw [Heap.contentOf_update_of_ne hs] at hv
    exact h.known s v hs hv

end Machine.Secludes

/-! ### Filling -/

/-- A value that nothing leads to is of the type and has the content so far. -/
structure Machine.Filling (m : Machine) (r : Ref) (type : HostType) (c : HostView.Content) : Prop where
  secludes : m.Secludes r
  cell_eq : m.heap.cell r = ⟨type, c⟩

namespace Machine.Filling

theorem opened (h : Bridge.Kin P old m.toBridge m.toBridge)
    (hcheck : Heap.checkContent type type.blank = .ok ()) (hblank : type.blank.Blank) :
    (m.opened type).Filling m.heap.cells.size type type.blank :=
  ⟨.opened h hcheck hblank, Heap.cell_alloc_self _⟩

theorem spared (h : m.Filling r type c) (hspares : m.Spares m' r) : m'.Filling r type c :=
  ⟨hspares.secludes, hspares.cell_eq.trans h.cell_eq⟩

theorem update (h : m.Filling r type c) {c' : HostView.Content}
    (hgrows : m.heap.Extends (m.heap.update r c')) (hwell : (m.heap.update r c').WellTyped) :
    Machine.Filling { m with heap := m.heap.update r c' } r type c' := by
  refine ⟨h.secludes.update hgrows hwell, ?_⟩
  rw [Heap.cell_update, if_pos ⟨rfl, h.secludes.lt⟩, h.cell_eq]

/-- An entry is stored in a table. -/
theorem tableAssign {yieldType : Option HostType} {entries : Entries Entry} {a : Atom} {yield : Option Ref}
    (h : m.Filling r (.table key yieldType) (.table entries)) (hk : m.heap.Holds (.atom key) k)
    (hatom : m.heap.contentOf k = .atom a) (hyield : m.heap.YieldFits yieldType yield) :
    ∃ g, m.heap.tableAssign r k yield = .ok g ∧ Machine.Filling { m with heap := g } r (.table key yieldType)
      (.table (entries.insert a ⟨k, yield⟩)) := by
  have hassign := Heap.tableAssign_eq (congrArg Cell.type h.cell_eq) (congrArg Cell.content h.cell_eq)
    (Heap.keyAtom_eq_ok.mpr ⟨hk.same, hatom⟩) hyield.checkYield
  exact ⟨_, hassign, h.update (Heap.extends_tableAssign hassign)
    (h.secludes.heap.left.tableAssign hk.lt hyield.lt hassign)⟩

/-- A field of a record is set. -/
theorem setField {descriptor i : Nat} {record : String} {fields : List (Field HostType)}
    {f : Field HostType} {slots : List (Option Ref)}
    (h : m.Filling r (.record descriptor record fields) (.record slots)) (hf : fields[i]? = some f)
    (hs : m.heap.Holds f.type s) :
    ∃ g, m.heap.setField r i (some s) = .ok g ∧ Machine.Filling { m with heap := g } r
      (.record descriptor record fields) (.record (slots.set i (some s))) := by
  have hset := Heap.setField_eq h.cell_eq hf hs.same
  have hlt : ∀ w, some s = some w → w < m.heap.cells.size := fun w hw => Option.some.inj hw ▸ hs.lt
  exact ⟨_, hset, h.update (Heap.extends_setField hset) (h.secludes.heap.left.setField hlt hset)⟩

end Machine.Filling

end Script

end HostView
