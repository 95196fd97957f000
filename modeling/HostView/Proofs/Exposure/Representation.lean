import HostView.Proofs.Exposure.Layouts
import HostView.Proofs.Exposure.Recognition
import HostView.Proofs.Exposure.Showing
import HostView.Proofs.Net.Literals
import HostView.Proofs.Script.Shapes

/-! # What stands for host values

The value that a script is shown for a host value stands for it: a primitive value for an atom or a
real, an object with two members for a port, a proxy before a wrap for a record or table, and an
array for a vector, if its items stand for those of the vector. The objects are new, and they go on
to stand for the host value as long as they stay as they are.
-/

namespace HostView

/-- The subnets among atoms were made with their length checked, every item of a vector is set, and
no vector has more items than the limit. This holds of a value and of the items of vectors. -/
inductive Heap.Full (h : Heap) (limit : Nat) : Ref → Prop
  | vector {r : Ref} {items : List Ref} (hcontent : h.contentOf r = .vector (items.map some))
      (hlength : items.length ≤ limit) (hitems : ∀ s ∈ items, h.Full limit s) : h.Full limit r
  | other {r : Ref} (hcontent : ∀ items, h.contentOf r ≠ .vector items)
      (hsubnet : ∀ s, h.contentOf r = .atom (.subnet s) → s.Made) : h.Full limit r

/-- No vector is longer than the limit, where some items may be unset. This holds of a value and of
the items of vectors. -/
inductive Heap.Short (h : Heap) (limit : Nat) : Ref → Prop
  | vector {r : Ref} {slots : List (Option Ref)} (hcontent : h.contentOf r = .vector slots)
      (hlength : slots.length ≤ limit) (hitems : ∀ s, some s ∈ slots → h.Short limit s) :
      h.Short limit r
  | other {r : Ref} (hcontent : ∀ slots, h.contentOf r ≠ .vector slots) : h.Short limit r

theorem Heap.Full.mono {h : Heap} {limit limit' : Nat} {r : Ref} (hr : h.Full limit r)
    (hlimit : limit ≤ limit') : h.Full limit' r := by
  induction hr with
  | vector hcontent hlength _ ih => exact .vector hcontent (Nat.le_trans hlength hlimit) ih
  | other hcontent hsubnet => exact .other hcontent hsubnet

theorem Heap.Full.short {h : Heap} {limit limit' : Nat} {r : Ref} (hr : h.Full limit r)
    (hlimit : limit ≤ limit') : h.Short limit' r := by
  induction hr with
  | vector hcontent hlength _ ih =>
      refine .vector hcontent (by simpa using Nat.le_trans hlength hlimit) fun s hs => ?_
      obtain ⟨t, ht, heq⟩ := List.mem_map.mp hs
      cases heq
      exact ih s ht
  | other hcontent hsubnet => exact .other hcontent

/-- Wraps go on to hold what they hold. -/
def Ledger.Keeps (l l' : Ledger) : Prop :=
  ∀ w wrap, l.wrap? w = some wrap → ∃ state, l'.wrap? w = some { wrap with state }

theorem Ledger.Keeps.refl (l : Ledger) : l.Keeps l := fun _ wrap hw => ⟨wrap.state, hw⟩

theorem Ledger.Keeps.trans {l l' l'' : Ledger} (h : l.Keeps l') (h' : l'.Keeps l'') :
    l.Keeps l'' := by
  intro w wrap hw
  obtain ⟨state, hw'⟩ := h w wrap hw
  obtain ⟨state', hw''⟩ := h' w _ hw'
  exact ⟨state', hw''⟩

theorem Ledger.keeps_wrap (l : Ledger) (value : Ref) (mask : Mask) (kind : WrapKind) (w : WrapId) :
    l.Keeps ((l.construct value mask kind).2.attach w) :=
  fun _ _ hw => wrap?_of_attach (wrap?_of_construct hw)

namespace Script

variable {call : Caller} {m m' m'' : Machine} {e e' : Engine} {h : Heap} {low low' : ObjectId}
  {r : Ref} {v : Value} {mask : Mask} {limit n : Nat}

/-! ### Machines that grow -/

/-- Objects, wraps, kept integers and layouts are added. Host values stay as they are, and so do the
objects that satisfy `P`. -/
structure Machine.Grows (P : ObjectId → Prop) (m m' : Machine) : Prop where
  engine : m.toEngine.Keeps P m'.toEngine
  heap : m'.heap = m.heap
  wraps : m.wraps.Keeps m'.wraps
  integers : m.integers.Exact → m'.integers.Exact
  layouts : m.Coherent → m'.Coherent

namespace Machine.Grows

variable {P P' : ObjectId → Prop}

theorem refl (m : Machine) : m.Grows P m := ⟨.refl _, rfl, .refl _, id, id⟩

theorem trans (h : m.Grows P m') (h' : m'.Grows P m'') : m.Grows P m'' :=
  ⟨h.engine.trans h'.engine, h'.heap.trans h.heap, h.wraps.trans h'.wraps,
    fun hexact => h'.integers (h.integers hexact), fun hm => h'.layouts (h.layouts hm)⟩

/-- A new object may go on to change. -/
theorem andNew {o : ObjectId} (h : m.Grows P m') (h' : m'.Grows (· ≠ o) m'')
    (ho : m.objects.size ≤ o) : m.Grows P m'' :=
  ⟨h.engine.andNew h'.engine ho, h'.heap.trans h.heap, h.wraps.trans h'.wraps,
    fun hexact => h'.integers (h.integers hexact), fun hm => h'.layouts (h.layouts hm)⟩

theorem mono (h : m.Grows P m') (hP : ∀ o < m.objects.size, P' o → P o) : m.Grows P' m' :=
  ⟨h.engine.mono hP, h.heap, h.wraps, h.integers, h.layouts⟩

theorem ofEngine (hkeeps : m.toEngine.Keeps P e) : m.Grows P ⟨e, m.toBridge⟩ :=
  ⟨hkeeps, rfl, .refl _, id, fun hm => hm.congr rfl rfl⟩

theorem size_le (h : m.Grows P m') : m.objects.size ≤ m'.objects.size := h.engine.size_le

end Machine.Grows

/-! ### Standing for a host value -/

/-- The primitive value that an atom is shown as; a port is shown as an object. -/
def shownAs? (τ : AtomType) : Atom → Option Value
  | .bool b => some (.bool b)
  | .int i => some (.ofHostInt i.toInt)
  | .count c => some (.bigInt c.toNat)
  | .string s => some (.string s)
  | .port _ => none
  | a => some (.string (a.render τ))

theorem object?_ofInt (i : Int) : (Value.ofInt i).object? = none := by
  unfold Value.ofInt
  split <;> rfl

theorem object?_ofReal (x : Binary64) : (Value.ofReal x).object? = none := by
  unfold Value.ofReal
  split
  · split <;> rfl
  · rfl

/-- What an atom is shown as is no object. -/
theorem object?_shownAs {τ : AtomType} {a : Atom} (hv : shownAs? τ a = some v) :
    v.object? = none := by
  cases a with
  | int i =>
      cases hv
      unfold Value.ofHostInt
      split
      · exact object?_ofInt _
      · rfl
  | port p => cases hv
  | _ =>
      cases hv
      rfl

/-- A script value stands for a host value of the heap under a mask, with objects from `low` on. -/
inductive Represents (m : Machine) (h : Heap) (mask : Mask) (low : ObjectId) : Value → Ref → Prop
  | atom {r : Ref} {τ : AtomType} {a : Atom} {v : Value} (hcell : h.cell r = ⟨.atom τ, .atom a⟩)
      (hvalue : shownAs? τ a = some v) : Represents m h mask low v r
  | port {r : Ref} {τ : AtomType} {p : Port} {o : ObjectId}
      (hcell : h.cell r = ⟨.atom τ, .atom (.port p)⟩) (hlow : low ≤ o) (hlt : o < m.objects.size)
      (hobject : m.object o = .plainWith
        [("port", .ofInt p.number.toNat), ("proto", .string p.protocol.render)]) :
      Represents m h mask low (.object o) r
  | real {r : Ref} {kind : RealKind} {x : Binary64}
      (hcell : h.cell r = ⟨.real kind, .real kind x⟩) : Represents m h mask low (.ofReal x) r
  | held {r : Ref} {o target : ObjectId} {w : WrapId} {state : WrapState} (hlow : low ≤ o)
      (hlow' : low ≤ target) (hlt : o < m.objects.size) (hlt' : target < m.objects.size)
      (hkind : WrapKind.of (h.typeOf r) ≠ .bare)
      (hobject : m.object o = ⟨.proxy target Intrinsic.bridge, none, true, []⟩)
      (htarget : m.object target = ⟨.wrap w, some Intrinsic.wrap, true, []⟩)
      (hwrap : m.wraps.wrap? w = some ⟨some r, mask, WrapKind.of (h.typeOf r), state⟩) :
      Represents m h mask low (.object o) r
  | vector {r : Ref} {type : HostType} {slots : List (Option Ref)} {o : ObjectId}
      {items : List Value} (hcell : h.cell r = ⟨.vector type, .vector slots⟩) (hlow : low ≤ o)
      (hlt : o < m.objects.size) (hobject : m.object o = .arrayWith items)
      (hsize : items.length = slots.length)
      (hunset : ∀ (i : Nat) (v : Value), items[i]? = some v → slots[i]? = some none →
        v = .undefined)
      (hitems : ∀ (i : Nat) (v : Value) (s : Ref), items[i]? = some v → slots[i]? = some (some s) →
        Represents m h mask low v s) : Represents m h mask low (.object o) r

/-- A value goes on to stand for a host value as long as its objects stay as they are. -/
theorem Represents.mono (hv : Represents m h mask low v r)
    (hengine : m.toEngine.Keeps (low ≤ ·) m'.toEngine) (hwraps : m.wraps.Keeps m'.wraps)
    (hlow : low' ≤ low) : Represents m' h mask low' v r := by
  have hsame {o : ObjectId} {x : Object} (ho : low ≤ o) (hlt : o < m.objects.size)
      (hx : m.object o = x) (hsettled : x.Settled) :
      low' ≤ o ∧ o < m'.objects.size ∧ m'.object o = x :=
    ⟨Nat.le_trans hlow ho, Nat.lt_of_lt_of_le hlt hengine.size_le,
      (hengine.object_eq o hlt ho (hx ▸ hsettled)).trans hx⟩
  induction hv with
  | atom hcell hvalue => exact .atom hcell hvalue
  | port hcell ho hlt hobject =>
      obtain ⟨ho', hlt', hobject'⟩ := hsame ho hlt hobject nofun
      exact .port hcell ho' hlt' hobject'
  | real hcell => exact .real hcell
  | held ho ht hlt hlt' hkind hobject htarget hwrap =>
      obtain ⟨ho', hlt₁, hobject'⟩ := hsame ho hlt hobject nofun
      obtain ⟨ht', hlt₂, htarget'⟩ := hsame ht hlt' htarget nofun
      obtain ⟨state, hwrap'⟩ := hwraps _ _ hwrap
      exact .held ho' ht' hlt₁ hlt₂ hkind hobject' htarget' hwrap'
  | vector hcell ho hlt hobject hsize hunset _ ih =>
      obtain ⟨ho', hlt', hobject'⟩ := hsame ho hlt hobject nofun
      exact .vector hcell ho' hlt' hobject' hsize hunset ih

/-- No object that stands for a host value is still to be made. -/
theorem Represents.settled (hv : Represents m h mask low v r) : v.Settled m.toEngine := by
  have hobject {o : ObjectId} {x : Object} (hx : m.object o = x) (hsettled : x.Settled) :
      (Value.object o).Settled m.toEngine := by
    rintro _ ⟨⟩
    exact hx ▸ hsettled
  cases hv with
  | atom hcell hvalue => exact .of_object? (object?_shownAs hvalue)
  | real hcell => exact .of_object? (object?_ofReal _)
  | port hcell ho hlt hx => exact hobject hx nofun
  | held ho ht hlt hlt' hkind hx htarget hwrap => exact hobject hx nofun
  | vector hcell ho hlt hx hsize hunset hitems => exact hobject hx nofun

end Script

end HostView
