import HostView.Proofs.Host.Places
import Mathlib.Data.List.Nodup

/-! # Tables as finite maps

Atoms are strictly and totally ordered, and the entries of a table are sorted by their atoms. A
sorted list of entries is a finite map: what it holds at an atom is what is found there, putting in
and taking out change one atom, and two lists that hold keys at the same atoms have their keys in one
order. Every operation on a heap keeps its tables sorted.
-/

namespace HostView

open Std

/-! ### The order of atoms -/

instance : TransCmp Address.compare where
  eq_swap {a b} := by
    cases a <;> cases b <;> simp only [Address.compare, Ordering.swap]
    all_goals exact OrientedOrd.eq_swap
  isLE_trans {a b c} hab hbc := by
    cases a <;> cases b <;> cases c <;> simp_all only [Address.compare] <;> first
      | exact TransOrd.isLE_trans hab hbc
      | simp_all

instance : TransCmp Subnet.compare :=
  have : TransCmp fun s t : Subnet => s.network.compare t.network :=
    { eq_swap := OrientedCmp.eq_swap
      isLE_trans := TransCmp.isLE_trans }
  inferInstanceAs (TransCmp (compareLex (fun s t => s.network.compare t.network)
    (compareOn Subnet.length)))

instance : TransCmp Port.compare :=
  inferInstanceAs (TransCmp (compareLex (compareOn fun p : Port => p.number.toNat)
    (compareOn fun p : Port => p.protocol.rank)))

theorem Atom.rank_le_of_compare {a b : Atom} (h : (a.compare b).isLE) : a.rank ≤ b.rank := by
  cases a <;> cases b <;> first | exact Nat.le_refl _ | exact Nat.isLE_compare.mp h

theorem Atom.compare_of_rank_lt {a b : Atom} (h : a.rank < b.rank) : a.compare b = .lt := by
  cases a <;> cases b <;> first | exact Nat.compare_eq_lt.mpr h | exact absurd h (Nat.lt_irrefl _)

/-- Atoms of one kind are ordered as what they hold is. -/
instance : TransCmp Atom.compare where
  eq_swap {a b} := by
    cases a <;> cases b <;> simp only [Atom.compare] <;> first
      | exact OrientedOrd.eq_swap
      | exact OrientedCmp.eq_swap
  isLE_trans {a b c} hab hbc := by
    have hleft := Atom.rank_le_of_compare hab
    have hright := Atom.rank_le_of_compare hbc
    rcases Nat.lt_or_ge a.rank c.rank with hlt | hge
    · rw [Atom.compare_of_rank_lt hlt]
      rfl
    · -- all three are of one kind
      have hfirst : a.rank = b.rank := by omega
      have hlast : b.rank = c.rank := by omega
      cases a <;> cases b <;> cases hfirst <;> cases c <;> cases hlast <;>
        simp only [Atom.compare] at hab hbc ⊢ <;> first
        | exact TransOrd.isLE_trans hab hbc
        | exact TransCmp.isLE_trans hab hbc

instance : LawfulEqCmp Atom.compare where
  eq_of_compare := Atom.eq_of_compare

theorem Atom.compare_self (a : Atom) : a.compare a = .eq := ReflCmp.compare_self

theorem Atom.ne_of_compare {a b : Atom} (h : a.compare b = .lt) : a ≠ b := by
  rintro rfl
  rw [compare_self] at h
  cases h

/-! ### Sorted entries -/

namespace Entries

variable {α : Type} {key a : Atom} {value v : α} {entries others : Entries α}

theorem sorted_nil : Sorted ([] : Entries α) := List.Pairwise.nil

theorem sorted_cons {x : Atom × α} :
    Sorted (x :: entries) ↔ (∀ y ∈ entries, x.1.compare y.1 = .lt) ∧ Sorted entries :=
  List.pairwise_cons

theorem Sorted.insert (h : entries.Sorted) (key : Atom) (value : α) :
    (entries.insert key value).Sorted := by
  induction entries with
  | nil => simp [Entries.insert, Sorted]
  | cons x rest ih =>
      obtain ⟨hfirst, hrest⟩ := sorted_cons.mp h
      rw [Entries.insert]
      split
      -- the new key comes first
      next hlt =>
        refine sorted_cons.mpr ⟨?_, h⟩
        intro y hy
        rcases List.mem_cons.mp hy with rfl | hy
        · exact hlt
        · exact TransCmp.lt_trans hlt (hfirst y hy)
      next heq =>
        obtain rfl := Atom.eq_of_compare heq
        exact sorted_cons.mpr ⟨hfirst, hrest⟩
      next hgt =>
        refine sorted_cons.mpr ⟨?_, ih hrest⟩
        intro y hy
        rcases mem_insert hy with hnew | hold
        · obtain rfl : y = (key, value) := hnew
          exact OrientedCmp.gt_iff_lt.mp hgt
        · exact hfirst y hold

theorem Sorted.erase (h : entries.Sorted) (key : Atom) : (entries.erase key).Sorted := by
  obtain ⟨before, old, after, hold, hnew⟩ := entries.erase_eq key
  rw [hnew]
  rw [hold] at h
  refine List.Pairwise.sublist ?_ h
  rw [List.append_assoc]
  exact (List.sublist_append_right _ after).append_left before

/-- No two entries have one key. -/
theorem Sorted.nodup (h : entries.Sorted) : (entries.map (·.1)).Nodup :=
  List.Pairwise.map _ (fun _ _ hlt => Atom.ne_of_compare hlt) h

theorem Sorted.eq_of_mem (h : entries.Sorted) {w : α} (hv : (a, v) ∈ entries)
    (hw : (a, w) ∈ entries) : v = w := by
  have hpair := List.inj_on_of_nodup_map h.nodup hv hw rfl
  exact (Prod.mk.inj hpair).2

/-- What is found at a key is what stands there. -/
theorem Sorted.find?_eq_some (h : entries.Sorted) :
    entries.find? key = some value ↔ (key, value) ∈ entries := by
  induction entries with
  | nil => simp [find?]
  | cons x rest ih =>
      obtain ⟨hfirst, hrest⟩ := sorted_cons.mp h
      obtain ⟨k, v⟩ := x
      rw [find?, List.mem_cons, Prod.mk.injEq]
      split
      next hlt =>
        -- the key lies before all that is left
        have hne := Atom.ne_of_compare hlt
        have habsent : (key, value) ∉ rest := fun hmem =>
          Atom.ne_of_compare (TransCmp.lt_trans hlt (hfirst _ hmem)) rfl
        simp [hne, habsent]
      next heq =>
        obtain rfl := Atom.eq_of_compare heq
        have habsent : (key, value) ∉ rest := fun hmem => Atom.ne_of_compare (hfirst _ hmem) rfl
        simp [habsent, eq_comm]
      next hgt =>
        have hne := (Atom.ne_of_compare (OrientedCmp.gt_iff_lt.mp hgt)).symm
        rw [ih hrest]
        simp [hne]

/-- Sorted entries at the same atoms have their keys in the same order. -/
theorem Sorted.keys_eq {β : Type} {others : Entries β} (h : entries.Sorted)
    (hothers : others.Sorted) (hmem : ∀ a, (∃ v, (a, v) ∈ entries) ↔ ∃ w, (a, w) ∈ others) :
    entries.map (·.1) = others.map (·.1) := by
  -- the same keys, each once, can be in increasing order in one way only
  have hperm : (entries.map (·.1)).Perm (others.map (·.1)) := by
    rw [List.perm_ext_iff_of_nodup h.nodup hothers.nodup]
    intro a
    simpa using hmem a
  have hincreasing {γ : Type} {fs : Entries γ} (hfs : fs.Sorted) :
      (fs.map (·.1)).Pairwise fun a b => a.compare b = .lt := List.pairwise_map.mpr hfs
  refine hperm.eq_of_pairwise ?_ (hincreasing h) (hincreasing hothers)
  intro a b _ _ hab hba
  exact absurd rfl (Atom.ne_of_compare (TransCmp.lt_trans hab hba))

/-- What is held after an entry is put in. -/
theorem Sorted.mem_insert_iff (h : entries.Sorted) :
    (a, v) ∈ entries.insert key value ↔ if a = key then v = value else (a, v) ∈ entries := by
  have hsorted := h.insert key value
  obtain ⟨before, old, after, hold, hnew⟩ := entries.insert_eq key value
  have hself : (key, value) ∈ entries.insert key value := by simp [hnew]
  split
  next heq =>
    subst heq
    constructor
    · intro hmem
      exact hsorted.eq_of_mem hmem hself
    · rintro rfl
      exact hself
  next hne =>
    rw [hnew, hold]
    simp [hne, Ne.symm hne]

/-- Putting in changes what is held at the key alone. -/
theorem Sorted.find?_insert (h : entries.Sorted) (key a : Atom) (value : α) :
    (entries.insert key value).find? a = if a = key then some value else entries.find? a := by
  ext v
  rw [(h.insert key value).find?_eq_some, h.mem_insert_iff]
  split
  · simp [eq_comm]
  · rw [h.find?_eq_some]

end Entries

/-! ### Heaps with sorted tables -/

namespace Heap

variable {h h' : Heap} {τ : HostType} {c : Content} {r key : Ref} {a : Atom}
  {value yield : Option Ref}

/-- The entries of every table are sorted. -/
def Ordered (h : Heap) : Prop :=
  ∀ r entries, h.contentOf r = .table entries → entries.Sorted

theorem ordered_empty : empty.Ordered := by
  intro r entries hr
  rw [contentOf, cell_of_size_le (Nat.zero_le r)] at hr
  cases hr

theorem Ordered.new (hh : h.Ordered) (hblank : c.Blank) (hnew : h.new τ c = .ok (r, h')) :
    h'.Ordered := by
  obtain ⟨-, -, rfl⟩ := new_eq_ok hnew
  intro s entries hs
  rw [contentOf, cell_alloc] at hs
  split at hs
  next =>
    obtain rfl : c = .table entries := hs
    obtain rfl : entries = [] := hblank
    exact Entries.sorted_nil
  next => exact hh s entries hs

theorem Ordered.update (hh : h.Ordered) (hc : ∀ entries, c = .table entries → entries.Sorted) :
    (h.update r c).Ordered := by
  intro s entries hs
  rw [contentOf, cell_update] at hs
  split at hs
  next => exact hc entries hs
  next => exact hh s entries hs

theorem Ordered.setField {offset : Nat} (hh : h.Ordered)
    (hset : h.setField r offset value = .ok h') : h'.Ordered := by
  obtain ⟨_, _, _, _, _, _, _, _, _, _, rfl⟩ := setField_eq_ok hset
  exact hh.update nofun

theorem Ordered.tableAssign (hh : h.Ordered) (hassign : h.tableAssign r key yield = .ok h') :
    h'.Ordered := by
  obtain ⟨_, _, entries, a, _, hcontent, _, _, rfl⟩ := tableAssign_eq_ok hassign
  refine hh.update ?_
  rintro _ ⟨⟩
  exact (hh r entries hcontent).insert a _

theorem Ordered.tableErase {present : Bool} (hh : h.Ordered)
    (herase : h.tableErase r a = .ok (present, h')) : h'.Ordered := by
  obtain ⟨_, _, entries, _, hcontent, _, rfl⟩ := tableErase_eq_ok herase
  refine hh.update ?_
  rintro _ ⟨⟩
  exact (hh r entries hcontent).erase a

theorem Ordered.vectorPush {v : Ref} (hh : h.Ordered) (hpush : h.vectorPush r v = .ok h') :
    h'.Ordered := by
  obtain ⟨_, _, _, _, _, rfl⟩ := vectorPush_eq_ok hpush
  exact hh.update nofun

end Heap

end HostView
