import HostView.Proofs.Host.Places
import Mathlib.Data.Finset.Lattice.Fold
import Mathlib.Data.Finset.Range
import Mathlib.Logic.Relation

/-! # References lead down

In a well-typed heap every reference leads from a value to one of a type that the type of the first is
made of. Types are finite, so no path along references comes back to where it began, and none goes on
for ever in either direction. Where values are counted by what refers to them, a value that is let go
is dropped as soon as nothing that is held leads to it.
-/

namespace HostView.Heap

variable {h : Heap} {held : Ref → Prop} {r v : Ref}

/-- The first value refers to the second. -/
def Refers (h : Heap) (r v : Ref) : Prop := (h.contentOf r).RefersTo v

/-- What a value refers to is there, and of a type that the type of the value is made of. -/
theorem WellTyped.holds_part (hh : h.WellTyped) (hv : h.Refers r v) :
    ∃ σ, σ.Part (h.typeOf r) ∧ h.Holds σ v := by
  have hfits := hh.fits r
  unfold Refers at hv
  generalize h.typeOf r = type, h.contentOf r = content at hfits hv
  cases hfits with
  | atom | real => exact hv.elim
  | record hlength hslots =>
      obtain ⟨f, hf, hholds⟩ := exists_field_holds hlength hslots hv
      exact ⟨f.type, .field hf, hholds⟩
  | @table key yield entries hentries =>
      obtain ⟨a, e, he, rfl | hyield⟩ := hv
      · exact ⟨_, .key, (hentries a e he).key⟩
      · obtain ⟨σ, rfl, hholds⟩ := (hentries a e he).holds_yield hyield
        exact ⟨σ, .yield, hholds⟩
  | vector hitems => exact ⟨_, .element, hitems v hv⟩

theorem WellTyped.part (hh : h.WellTyped) (hv : h.Refers r v) :
    ∃ σ, σ.Part (h.typeOf r) ∧ (h.typeOf v).same σ := by
  obtain ⟨σ, hpart, hholds⟩ := hh.holds_part hv
  exact ⟨σ, hpart, hholds.same⟩

theorem WellTyped.height_lt (hh : h.WellTyped) (hv : h.Refers r v) :
    (h.typeOf v).height < (h.typeOf r).height := by
  obtain ⟨σ, hpart, hsame⟩ := hh.part hv
  rw [HostType.height_eq_of_same hsame]
  exact hpart.height_lt

theorem WellTyped.wellFounded (hh : h.WellTyped) : WellFounded fun v r => h.Refers r v :=
  Subrelation.wf hh.height_lt (measure fun r => (h.typeOf r).height).wf

/-- No value refers to itself, not even through others. -/
theorem WellTyped.acyclic (hh : h.WellTyped) (r : Ref) : ¬ Relation.TransGen h.Refers r r := by
  suffices hlt : ∀ v, Relation.TransGen h.Refers r v →
      (h.typeOf v).height < (h.typeOf r).height from fun hr => Nat.lt_irrefl _ (hlt r hr)
  intro v hv
  induction hv with
  | single hv => exact hh.height_lt hv
  | tail _ hv ih => exact Nat.lt_trans (hh.height_lt hv) ih

/-! ### Counting references -/

/-- The value is dropped where values are counted by what refers to them: it is not held, and what
referred to it has been dropped before. -/
inductive Dropped (h : Heap) (held : Ref → Prop) : Ref → Prop where
  | drop {v : Ref} (hheld : ¬ held v) (hreferrers : ∀ r, h.Refers r v → Dropped h held r) :
      Dropped h held v

/-- Something that is held leads to the value. -/
def Retained (h : Heap) (held : Ref → Prop) (v : Ref) : Prop :=
  ∃ r, held r ∧ Relation.ReflTransGen h.Refers r v

/-- No type in a heap is higher than some bound. -/
theorem exists_height_le (h : Heap) : ∃ bound, ∀ r, (h.typeOf r).height ≤ bound := by
  refine ⟨(Finset.range h.cells.size).sup fun r => (h.typeOf r).height, fun r => ?_⟩
  by_cases hr : r < h.cells.size
  · exact Finset.le_sup (f := fun r => (h.typeOf r).height) (Finset.mem_range.mpr hr)
  · rw [typeOf, cell_of_size_le (Nat.le_of_not_lt hr)]
    exact Nat.zero_le _

theorem WellTyped.wellFounded_referrers (hh : h.WellTyped) : WellFounded h.Refers := by
  obtain ⟨bound, hbound⟩ := h.exists_height_le
  refine Subrelation.wf (fun {r v} hv => ?_) (measure fun r => bound - (h.typeOf r).height).wf
  have hlt := hh.height_lt hv
  have hle := hbound r
  show bound - (h.typeOf r).height < bound - (h.typeOf v).height
  omega

/-- What is dropped is what nothing that is held leads to: no circle keeps a value. -/
theorem WellTyped.dropped_iff (hh : h.WellTyped) : h.Dropped held v ↔ ¬ h.Retained held v := by
  constructor
  · intro hv
    induction hv with
    | drop hheld _ ih =>
        rintro ⟨r, hr, hpath⟩
        -- a path to the value is empty or ends with a referrer, which was dropped before
        rcases hpath.cases_tail with rfl | ⟨s, hpath, hs⟩
        · exact hheld hr
        · exact ih s hs ⟨r, hr, hpath⟩
  · intro hv
    induction v using hh.wellFounded_referrers.induction with
    | h v ih =>
        refine .drop (fun hheld => hv ⟨v, hheld, .refl⟩) fun r hr => ih r hr ?_
        rintro ⟨s, hs, hpath⟩
        exact hv ⟨s, hs, hpath.tail hr⟩

end HostView.Heap
