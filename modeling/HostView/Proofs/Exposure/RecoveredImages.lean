import HostView.Proofs.Exposure.Copies
import HostView.Proofs.Exposure.PlainDecoding
import HostView.Proofs.Exposure.Recovery

/-! # Recovered values read

What is recovered of a host value is structurally equal to it, if the variants of its enumerations have
different names. So is a record or table that is made again of what
is recovered of its parts.
-/

namespace HostView

/-- Scalars of the type, or in vectors of it, are told by their texts. -/
def HostType.VariantsApart : HostType → Prop
  | .atom τ => τ.Distinct
  | .vector element => element.VariantsApart
  | _ => True

theorem HostType.VariantsApart.of_same : ∀ {τ σ : HostType}, τ.same σ = true → σ.VariantsApart →
    τ.VariantsApart
  | .atom _, .atom _, hsame, hσ => by
      cases HostType.eq_atom_of_same hsame
      exact hσ
  | .vector τ, .vector σ, hsame, hσ => by
      rw [HostType.same] at hsame
      exact @of_same τ σ hsame hσ
  | .real _, _, _, _ | .record .., _, _, _ | .table .., _, _, _ => trivial

namespace Heap

variable {g h : Heap} {low r s : Ref} {n k : Nat}

/-- The second value serves for the first one: it is the same, or it is recovered of it and scalars are told
by their texts. -/
inductive Serves (h : Heap) (low : Ref) (g : Heap) : Ref → Ref → Prop
  | same {r : Ref} (hr : r < h.cells.size) : Serves h low g r r
  | recovered {r s : Ref} (hs : h.Recovers low g r s) (hvariants : (h.typeOf r).VariantsApart) :
      Serves h low g r s

/-- A value that stays as it is is like itself. -/
theorem WellTyped.cells_alike (hh : h.WellTyped) (low : Ref) (g : Heap) (r : Ref) :
    CellsAlike (h.Serves low g) (h.cell r) (h.cell r) := by
  have hslots : SlotsRelated (h.Serves low g) (h.contentOf r).slots (h.contentOf r).slots := by
    refine ⟨rfl, fun v w hmem => ?_⟩
    obtain ⟨i, hi⟩ := List.mem_iff_getElem?.mp hmem
    obtain ⟨hv, hw⟩ := List.getElem?_zip_eq_some.mp hi
    cases hv.symm.trans hw
    exact .same (hh.slot_lt (List.mem_of_getElem? hv))
  have hfits := hh.fits r
  rw [h.cell_eq r]
  generalize h.typeOf r = type, h.contentOf r = content at hfits hslots
  cases hfits with
  | atom => exact .atom
  | real => exact .real (.inl rfl)
  | record => exact .record (HostType.same_refl _) hslots
  | table => exact .table (HostType.sameYield_refl _) rfl hslots
  | vector => exact .vector (HostType.same_refl _) hslots

theorem Serves.cells_alike (hs : h.Serves low g r s) (hh : h.WellTyped) (hadds : h.Adds g) :
    CellsAlike (h.Serves low g) (h.cell r) (g.cell s) := by
  cases hs with
  | same hr => exact hadds.cell_eq r hr ▸ hh.cells_alike low g r
  | recovered hs hvariants =>
      cases hs with
      | held hkind => exact hadds.cell_eq r (lt_of_not_bare hkind) ▸ hh.cells_alike low g r
      | atom hcell _ _ hnew halike =>
          rw [typeOf_eq hcell] at hvariants
          rw [hcell, hnew, halike.eq hvariants (hh.admits hcell)]
          exact .atom
      | real hcell _ _ hnew halike =>
          rw [hcell, hnew]
          exact .real halike
      | @vector _ _ _ _ refs news hcell _ _ hnew hsame hlength hitems =>
          rw [typeOf_eq hcell] at hvariants
          rw [hcell, hnew]
          refine .vector hsame ⟨by simp [Function.comp_def, hlength], fun v w hmem => ?_⟩
          obtain ⟨i, hi⟩ := List.mem_iff_getElem?.mp hmem
          obtain ⟨hat, hat'⟩ := List.getElem?_zip_eq_some.mp hi
          have hv : refs[i]? = some v := by simpa using hat
          have hw : news[i]? = some w := by simpa using hat'
          exact .recovered (hitems i v w hv hw)
            (.of_same (hh.items hcell v (List.mem_of_getElem? hv)) hvariants)

end Heap

end HostView
