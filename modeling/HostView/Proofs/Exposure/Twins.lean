import HostView.Exposure.Receiver
import HostView.Proofs.Exposure.Integers
import HostView.Proofs.Exposure.Layouts
import HostView.Proofs.Exposure.Wraps
import HostView.Proofs.Host.Order
import HostView.Proofs.Host.Required
import HostView.Proofs.Host.Twins
import HostView.Proofs.Script.Agreement

/-! # Bridges that show the same

Two bridges are kin under a policy if their host values are and all else is equal, if every wrap and
every function that takes snapshots shows a host value under a mask that the policy allows for it, and
if every integer that is kept is the one that it is kept for. They are twins under some masks if they
are kin where everything may be shown under any of them. Through time a bridge grows: host values are
added, wraps go on to hold theirs, a value comes to refer only to what is new and to what a script
holds, and no slot is touched that is hidden wherever its record may be shown, nor any value that may
not be shown at all. Sorted tables stay sorted, and layouts of records are kept. What a value or a wrap
comes to lead to is complete, unless something led to it before or the host handed it over. Where that is
asked for, host values below a bound stay as they are.
-/

namespace HostView.Script

variable {P : Policy} {masks : Mask → Prop} {fixed : Prop} {old : Nat} {b b' b'' c : Bridge} {r : Ref}

/-- Bridges over which the same script runs alike. -/
structure Bridge.Kin (P : Policy) (old : Nat) (b c : Bridge) : Prop where
  heap : Heap.Kin P b.heap c.heap
  rest : c = { b with heap := c.heap }
  wraps : ∀ w wrap, b.wraps.wrap? w = some wrap → P.Allows wrap.mask ∧
    ∀ v, wrap.value = some v → v < b.heap.cells.size ∧ P.Shows v (b.heap.typeOf v) wrap.mask
  snapshots : ∀ p ∈ b.snapshots, p.1 < b.heap.cells.size ∧ P.Shows p.1 (b.heap.typeOf p.1) p.2
  known : ∀ s v, P.Knows s → (b.heap.contentOf s).RefersTo v → P.Knows v
  fresh : ∀ v, old ≤ v → P.Knows v
  old_le : old ≤ b.heap.cells.size
  integers : b.integers.Exact

/-- Bridges over which the same script runs alike, where everything is shown under the masks. -/
structure Bridge.Twins (masks : Mask → Prop) (old : Nat) (b c : Bridge) : Prop where
  heap : Heap.Twins masks b.heap c.heap
  rest : c = { b with heap := c.heap }
  wraps : ∀ w wrap, b.wraps.wrap? w = some wrap →
    masks wrap.mask ∧ ∀ v, wrap.value = some v → v < b.heap.cells.size
  snapshots : ∀ p ∈ b.snapshots, masks p.2 ∧ p.1 < b.heap.cells.size
  old_le : old ≤ b.heap.cells.size
  integers : b.integers.Exact

theorem Bridge.Twins.kin (h : Bridge.Twins masks old b c) : Bridge.Kin (.ofMasks masks) old b c where
  heap := Heap.twins_iff_kin.mp h.heap
  rest := h.rest
  wraps w wrap hw :=
    have ⟨hmask, hvalue⟩ := h.wraps w wrap hw
    ⟨Policy.allows_ofMasks.mpr hmask, fun v hv => ⟨hvalue v hv, hmask⟩⟩
  snapshots p hp := (h.snapshots p hp).symm
  known _ _ _ _ := trivial
  fresh _ _ := trivial
  old_le := h.old_le
  integers := h.integers

theorem Bridge.Kin.twins (h : Bridge.Kin (.ofMasks masks) old b c) : Bridge.Twins masks old b c where
  heap := Heap.twins_iff_kin.mpr h.heap
  rest := h.rest
  wraps w wrap hw :=
    have ⟨hmask, hvalue⟩ := h.wraps w wrap hw
    ⟨Policy.allows_ofMasks.mp hmask, fun v hv => (hvalue v hv).1⟩
  snapshots p hp := (h.snapshots p hp).symm
  old_le := h.old_le
  integers := h.integers

/-- A wrap holds the value. -/
def Bridge.Shows (b : Bridge) (v : Ref) : Prop :=
  ∃ w wrap, b.wraps.wrap? w = some wrap ∧ wrap.value = some v

/-- The value is new, or it is handed on by a script that holds a wrap of it. -/
def Bridge.Gives (old : Nat) (b : Bridge) (v : Ref) : Prop := old ≤ v ∨ b.Shows v

/-- A script that holds a wrap of the value hands it on, or the value is new and complete. -/
def Bridge.Supplies (old : Nat) (b : Bridge) (v : Ref) : Prop :=
  b.Shows v ∨ old ≤ v ∧ b.heap.Complete v

/-- A host value or a wrap leads to the value. -/
def Bridge.Retains (b : Bridge) (v : Ref) : Prop :=
  (∃ r, (b.heap.contentOf r).RefersTo v) ∨ b.Shows v

/-- The value may be shown to a script: something led to it before, it is complete, or the host may
hand it over. -/
def Bridge.Offers (P : Policy) (b : Bridge) (v : Ref) : Prop :=
  b.Retains v ∨ b.heap.Complete v ∨ P.Lends v

/-- Where everything may be shown, the host may hand over everything. -/
theorem Bridge.offers_ofMasks {v : Ref} : b.Offers (.ofMasks masks) v := .inr (.inr trivial)

/-- What a bridge may become. -/
structure Bridge.Leads (P : Policy) (fixed : Prop) (old : Nat) (b b' : Bridge) : Prop where
  grows : b.heap.Extends b'.heap
  wraps : b.wraps.Gains b'.wraps
  stores : ∀ r v, (b'.heap.contentOf r).RefersTo v →
    (b.heap.contentOf r).RefersTo v ∨ b'.Gives old v
  kept : ∀ r < old, ∀ i f, (b.heap.typeOf r).fields[i]? = some f →
    Hidden (P.Shows r (b.heap.typeOf r)) f →
      (b'.heap.contentOf r).slot? i = (b.heap.contentOf r).slot? i
  apart : ∀ r < old, (∀ mask, ¬P.Shows r (b.heap.typeOf r) mask) → b'.heap.cell r = b.heap.cell r
  whole : ∀ v, b'.Retains v → b.Retains v ∨ b'.heap.Complete v ∨ P.Lends v
  ordered : b.heap.Ordered → b'.heap.Ordered
  layouts : b.offsets.Extends b'.offsets
  frame : fixed → ∀ r < old, b'.heap.cell r = b.heap.cell r

/-- A wrap goes on to hold its value. -/
theorem Bridge.Leads.shows (h : Bridge.Leads P fixed old b b') (v : Ref) (hv : b.Shows v) :
    b'.Shows v := by
  obtain ⟨w, wrap, hw, hvalue⟩ := hv
  obtain ⟨state, hw'⟩ := h.wraps.wrap?_eq hw
  exact ⟨w, _, hw', hvalue⟩

theorem Bridge.Gives.mono {v : Ref} (hv : b.Gives old v) (hshows : ∀ v, b.Shows v → b'.Shows v) :
    b'.Gives old v :=
  hv.imp_right (hshows v)

theorem Bridge.Supplies.gives {v : Ref} (hv : b.Supplies old v) : b.Gives old v :=
  hv.symm.imp_left And.left

theorem Bridge.Leads.refl (b : Bridge) : Bridge.Leads P fixed old b b :=
  ⟨.refl _, .refl _, fun _ _ => .inl, fun _ _ _ _ _ _ => rfl, fun _ _ _ => rfl, fun _ => .inl, id,
    .refl _, fun _ _ _ => rfl⟩

theorem Bridge.Leads.trans (h : Bridge.Leads P fixed old b b')
    (h' : Bridge.Leads P fixed old b' b'') : Bridge.Leads P fixed old b b'' where
  grows := h.grows.trans h'.grows
  wraps := h.wraps.trans h'.wraps
  stores r v hv := by
    rcases h'.stores r v hv with hv | hv
    · exact (h.stores r v hv).imp_right fun hv => hv.mono h'.shows
    · exact .inr hv
  kept r hr i f hf hhidden := by
    have hlt : r < b.heap.cells.size := Heap.lt_of_field hf
    have htype := h.grows.typeOf_eq r hlt
    rw [h'.kept r hr i f (htype ▸ hf) (htype ▸ hhidden), h.kept r hr i f hf hhidden]
  apart r hr hnone := by
    have hcell := h.apart r hr hnone
    have htype : b'.heap.typeOf r = b.heap.typeOf r := congrArg Cell.type hcell
    exact (h'.apart r hr (htype ▸ hnone)).trans hcell
  whole v hv := by
    rcases h'.whole v hv with hv | hv
    · exact (h.whole v hv).imp_right (.imp_left (·.extend h'.grows))
    · exact .inr hv
  ordered hb := h'.ordered (h.ordered hb)
  layouts := h.layouts.trans h'.layouts
  frame hfixed r hr := (h'.frame hfixed r hr).trans (h.frame hfixed r hr)

/-- Host values are shown as the policy allows, and those below the bound are not changed. -/
def Discipline.kin (P : Policy) (fixed : Prop) (old : Nat) : Discipline where
  alike := Bridge.Kin P old
  leads := Bridge.Leads P fixed old
  leads_refl := .refl
  leads_trans := .trans
  alike_size h := h.heap.size_eq

/-- Host values are shown under the masks only, and those below the bound are not changed. -/
abbrev Discipline.twins (masks : Mask → Prop) (fixed : Prop) (old : Nat) : Discipline :=
  .kin (.ofMasks masks) fixed old

namespace Bridge

theorem Leads.lt (h : Leads P fixed old b b') {r : Ref} (hr : r < b.heap.cells.size) :
    r < b'.heap.cells.size :=
  Nat.lt_of_lt_of_le hr h.grows.size_le

theorem Leads.typeOf_eq (h : Leads P fixed old b b') {r : Ref} (hr : r < b.heap.cells.size) :
    b'.heap.typeOf r = b.heap.typeOf r :=
  h.grows.typeOf_eq r hr

/-- A bridge is its own twin if its heap is well typed and everything in it leads to host values. -/
theorem Twins.refl_iff : Twins masks old b b ↔ b.heap.WellTyped ∧
    (∀ w wrap, b.wraps.wrap? w = some wrap →
      masks wrap.mask ∧ ∀ v, wrap.value = some v → v < b.heap.cells.size) ∧
    (∀ p ∈ b.snapshots, masks p.2 ∧ p.1 < b.heap.cells.size) ∧ old ≤ b.heap.cells.size ∧
    b.integers.Exact :=
  ⟨fun h => ⟨h.heap.left, h.wraps, h.snapshots, h.old_le, h.integers⟩,
    fun ⟨hheap, hwraps, hsnapshots, hold, hintegers⟩ =>
      ⟨Heap.twins_iff_kin.mpr hheap.kin, rfl, hwraps, hsnapshots, hold, hintegers⟩⟩

/-- Kin stay kin if their heaps grow into kin. -/
theorem Kin.setHeap (h : Kin P old b c) {g g' : Heap} (hg : Heap.Kin P g g')
    (hgrows : b.heap.Extends g)
    (hknown : ∀ s v, P.Knows s → (g.contentOf s).RefersTo v → P.Knows v) :
    Kin P old { b with heap := g } { c with heap := g' } where
  heap := hg
  rest := by rw [h.rest]
  wraps w wrap hw :=
    have ⟨hmask, hvalue⟩ := h.wraps w wrap hw
    ⟨hmask, fun v hv =>
      have ⟨hlt, hshows⟩ := hvalue v hv
      ⟨Nat.lt_of_lt_of_le hlt hgrows.size_le, (hgrows.typeOf_eq v hlt).symm ▸ hshows⟩⟩
  snapshots p hp :=
    have ⟨hlt, hshows⟩ := h.snapshots p hp
    ⟨Nat.lt_of_lt_of_le hlt hgrows.size_le, (hgrows.typeOf_eq p.1 hlt).symm ▸ hshows⟩
  known := hknown
  fresh := h.fresh
  old_le := Nat.le_trans h.old_le hgrows.size_le
  integers := h.integers

/-- What is stored may be known: it was there, it is new, or it is shown. -/
theorem Kin.lead (h : Kin P old b c) {g g' : Heap} (hg : Heap.Kin P g g')
    (hleads : Leads P fixed old b { b with heap := g }) :
    Kin P old { b with heap := g } { c with heap := g' } := by
  refine h.setHeap hg hleads.grows fun s v hs hv => ?_
  obtain hold | hnew | ⟨w, wrap, hw, hvalue⟩ := hleads.stores s v hv
  · exact h.known s v hs hold
  · exact h.fresh v hnew
  · exact P.knows ((h.wraps w wrap hw).2 v hvalue).2

/-- Kin stay kin if what is not the heap changes alike and stays within bounds. -/
theorem Kin.keepHeap (h : Kin P old b c) {x : Bridge} (hheap : x.heap = b.heap)
    (hwraps : ∀ w wrap, x.wraps.wrap? w = some wrap → P.Allows wrap.mask ∧
      ∀ v, wrap.value = some v → v < b.heap.cells.size ∧ P.Shows v (b.heap.typeOf v) wrap.mask)
    (hsnapshots : ∀ p ∈ x.snapshots,
      p.1 < b.heap.cells.size ∧ P.Shows p.1 (b.heap.typeOf p.1) p.2)
    (hintegers : x.integers.Exact) : Kin P old x { x with heap := c.heap } where
  heap := hheap ▸ h.heap
  rest := rfl
  wraps := hheap ▸ hwraps
  snapshots := hheap ▸ hsnapshots
  known := hheap ▸ h.known
  fresh := h.fresh
  old_le := hheap ▸ h.old_le
  integers := hintegers

/-- Wraps may be added and attached that show what may be shown. -/
theorem leads_of_wraps (h : b'.heap = b.heap) (hwraps : b.wraps.Gains b'.wraps)
    (hshown : ∀ v, b'.Shows v → b.Shows v ∨ b.Offers P v) (hlayouts : b.offsets.Extends b'.offsets) :
    Leads P fixed old b b' where
  grows := h ▸ .refl _
  wraps := hwraps
  stores _ _ hv := .inl (h ▸ hv)
  kept _ _ _ _ _ _ := by rw [h]
  apart _ _ _ := by rw [h]
  whole v hv := by
    rcases hv with hrefers | hshows
    · exact .inl (.inl (h ▸ hrefers))
    · exact h.symm ▸ (hshown v hshows).elim (.inl ∘ .inr) id
  ordered hb := h ▸ hb
  layouts := hlayouts
  frame _ _ _ := by rw [h]

/-- What touches neither the heap nor the wraps is allowed. -/
theorem leads_of_heap_eq (h : b'.heap = b.heap) (hwraps : b'.wraps = b.wraps)
    (hlayouts : b.offsets.Extends b'.offsets) : Leads P fixed old b b' :=
  leads_of_wraps h (hwraps ▸ .refl _) (fun _ ⟨w, wrap, hw, hv⟩ => .inl ⟨w, wrap, hwraps ▸ hw, hv⟩)
    hlayouts

/-- A value may be built that refers to no other. -/
theorem leads_new {type : HostType} {content : HostView.Content} {g : Heap}
    (hold : old ≤ b.heap.cells.size) (hblank : content.Blank)
    (hnew : b.heap.new type content = .ok (r, g)) : Leads P fixed old b { b with heap := g } where
  grows := Heap.extends_new hnew
  wraps := .refl _
  stores _ _ hv := .inl (Heap.refersTo_new hblank hnew hv)
  kept s hs _ _ _ _ := by
    rw [Heap.contentOf, Heap.cell_new hnew (Nat.lt_of_lt_of_le hs hold), Heap.contentOf]
  apart _ hs _ := Heap.cell_new hnew (Nat.lt_of_lt_of_le hs hold)
  whole _ hv := .inl (hv.imp_left fun ⟨s, hs⟩ => ⟨s, Heap.refersTo_new hblank hnew hs⟩)
  ordered hb := hb.new hblank hnew
  layouts := .refl _
  frame _ _ hs := Heap.cell_new hnew (Nat.lt_of_lt_of_le hs hold)

/-- A value may be changed, if it comes to refer to what may be stored only, and if it is new, or may
be shown with the slot that is changed and none is held fixed. -/
theorem leads_changedAt {g : Heap} {place : Place} (hgrows : b.heap.Extends g)
    (hchanged : Heap.ChangedAt old b.heap g r place)
    (hstores : ∀ s v, (g.contentOf s).RefersTo v →
      (b.heap.contentOf s).RefersTo v ∨ b.Supplies old v)
    (hshown : r < old → ∀ offset f, place = .slot offset →
      (b.heap.typeOf r).fields[offset]? = some f → ¬ Hidden (P.Shows r (b.heap.typeOf r)) f)
    (happears : r < old → ∃ mask, P.Shows r (b.heap.typeOf r) mask)
    (hordered : b.heap.Ordered → g.Ordered) (hr : fixed → old ≤ r) :
    Leads P fixed old b { b with heap := g } where
  grows := hgrows
  wraps := .refl _
  stores s v hv := (hstores s v hv).imp_right fun hv => hv.gives
  whole v hv := by
    rcases hv with ⟨s, hs⟩ | hshows
    · rcases hstores s v hs with hold | hshows | ⟨-, hcomplete⟩
      · exact .inl (.inl ⟨s, hold⟩)
      · exact .inl (.inr hshows)
      · exact .inr (.inl (hcomplete.extend hgrows))
    · exact .inl (.inr hshows)
  kept s hs i f hf hhidden := by
    by_cases hsr : s = r
    · subst hsr
      exact hchanged.content.slot?_eq fun hplace => hshown hs i f hplace hf hhidden
    · rw [Heap.contentOf, hchanged.others s hs hsr, Heap.contentOf]
  apart s hs hnone := by
    refine hchanged.others s hs ?_
    rintro rfl
    obtain ⟨mask, hmask⟩ := happears hs
    exact hnone mask hmask
  ordered := hordered
  layouts := .refl _
  frame hfixed s hs :=
    hchanged.others s hs (Nat.ne_of_lt (Nat.lt_of_lt_of_le hs (hr hfixed)))

end Bridge

/-! ### Receivers -/

/-- A receiver leads to a host value and shows it under a mask that the policy allows for it. -/
structure Receiver.Within (P : Policy) (b : Bridge) (r : Receiver) : Prop where
  lt : r.value < b.heap.cells.size
  shows : P.Shows r.value (b.heap.typeOf r.value) r.mask

variable {r : Receiver} {e : Engine} {call : Caller} {o target : ObjectId}

theorem Receiver.Within.lead (hr : r.Within P b) (h : Bridge.Leads P fixed old b b') :
    r.Within P b' :=
  ⟨h.lt hr.lt, (h.typeOf_eq hr.lt).symm ▸ hr.shows⟩

namespace Bridge.Kin

theorem receiver?_eq (h : Kin P old b c) (target : ObjectId) :
    Machine.receiver? ⟨e, b⟩ target = Machine.receiver? ⟨e, c⟩ target := by
  rw [h.rest]
  rfl

theorem within (h : Kin P old b c)
    (hr : Machine.receiver? ⟨e, b⟩ target = some r) : r.Within P b := by
  simp only [Machine.receiver?, Option.bind_eq_bind, Option.bind_eq_some_iff] at hr
  obtain ⟨w, -, wrap, hwrap, value, hvalue, hr⟩ := hr
  cases hr
  exact ⟨((h.wraps w wrap hwrap).2 value hvalue).1, ((h.wraps w wrap hwrap).2 value hvalue).2⟩

end Bridge.Kin

open Discipline

section

variable (hcall : (kin P fixed old).Lawful call) (h : Bridge.Kin P old b c)

include hcall h

/-- The wrap behind an object is found alike. -/
theorem unwrap_ends (o : ObjectId) :
    (kin P fixed old).Ends call e b c (unwrap o) (unwrap o) fun _ _ => True := by
  unfold unwrap
  refine .get_bind ?_
  have hsame : Machine.wrapOf? ⟨e, c⟩ o = Machine.wrapOf? ⟨e, b⟩ o := rfl
  rw [hsame]
  cases Machine.wrapOf? ⟨e, b⟩ o with
  | some w => exact .pure h trivial
  | none =>
      refine .bind (.turn hcall h _) fun x e' b' c' h' _ _ => ?_
      split
      next => exact .get_bind (.pure h' trivial)
      next => exact .pure h' trivial

/-- The host value behind an object is found alike, and it is there. -/
theorem unwrapValue_ends (o : ObjectId) :
    (kin P fixed old).Ends call e b c (unwrapValue o) (unwrapValue o) fun x b' =>
      ∀ r, x = some r → r < b'.heap.cells.size ∧ b'.Shows r := by
  unfold unwrapValue
  refine .bind (unwrap_ends hcall h o) fun w e' b' c' h' _ _ => .get_bind ?_
  have hwraps : c'.wraps = b'.wraps := by rw [h'.rest]
  simp only [hwraps]
  refine .pure h' fun r hr => ?_
  obtain ⟨wrap, hwrap, hvalue⟩ := Option.bind_eq_some_iff.mp hr
  obtain ⟨w', -, hwrap⟩ := Option.bind_eq_some_iff.mp hwrap
  exact ⟨((h'.wraps w' wrap hwrap).2 r hvalue).1, w', wrap, hwrap, hvalue⟩

end

end HostView.Script
