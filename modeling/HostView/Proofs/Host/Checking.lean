import HostView.Proofs.Host.Order
import Mathlib.Data.List.Forall2

/-! # Checking heaps

Whether a heap is well typed and whether its tables are sorted can be decided: the values are gone
through one by one. A content fits a type if its parts, each looked at on its own, are of the types
of the parts.
-/

namespace HostView

namespace Heap

variable {h : Heap} {τ : HostType} {r : Ref}

/-! ### The parts of a content -/

theorem holds_iff : h.Holds τ r ↔ r < h.cells.size ∧ (h.typeOf r).same τ = true :=
  ⟨fun hr => ⟨hr.lt, hr.same⟩, fun ⟨hlt, hsame⟩ => ⟨hlt, hsame⟩⟩

theorem entryFits_iff {key : AtomType} {yield : Option HostType} {a : Atom} {e : Entry} :
    h.EntryFits key yield a e ↔
      h.Holds (.atom key) e.key ∧ h.contentOf e.key = .atom a ∧ h.YieldFits yield e.yield :=
  ⟨fun he => ⟨he.key, he.atom, he.yield⟩, fun ⟨hkey, hatom, hyield⟩ => ⟨hkey, hatom, hyield⟩⟩

theorem fits_atom_iff {α : AtomType} {a : Atom} :
    h.Fits (.atom α) (.atom a) ↔ α.admits a = true := by
  constructor
  · intro hfits
    cases hfits with
    | atom hadmits => exact hadmits
  · exact .atom

theorem fits_real_iff {kind other : RealKind} {x : Binary64} :
    h.Fits (.real kind) (.real other x) ↔ kind = other := by
  constructor
  · intro hfits
    cases hfits
    rfl
  · rintro rfl
    exact .real

theorem fits_record_iff {d : Nat} {name : String} {fields : List (Field HostType)}
    {slots : List (Option Ref)} :
    h.Fits (.record d name fields) (.record slots) ↔
      List.Forall₂ (fun f slot => ∀ v ∈ slot, h.Holds f.type v) fields slots := by
  rw [List.forall₂_iff_get]
  constructor
  · intro hfits
    cases hfits with
    | record hlength hslots =>
        refine ⟨hlength.symm, fun i hf hs v hv => hslots i _ v (List.getElem?_eq_getElem hf) ?_⟩
        exact (List.getElem?_eq_getElem hs).trans (congrArg some hv)
  · rintro ⟨hlength, hslots⟩
    refine .record hlength.symm fun i f v hf hv => ?_
    obtain ⟨hi, rfl⟩ := List.getElem?_eq_some_iff.mp hf
    obtain ⟨hj, hv⟩ := List.getElem?_eq_some_iff.mp hv
    exact hslots i hi hj v hv

theorem fits_table_iff {key : AtomType} {yield : Option HostType} {entries : Entries Entry} :
    h.Fits (.table key yield) (.table entries) ↔
      ∀ entry ∈ entries, h.EntryFits key yield entry.1 entry.2 := by
  constructor
  · intro hfits
    cases hfits with
    | table hentries => exact fun entry => hentries entry.1 entry.2
  · exact fun hentries => .table fun a e => hentries (a, e)

theorem fits_vector_iff {element : HostType} {items : List (Option Ref)} :
    h.Fits (.vector element) (.vector items) ↔ ∀ item ∈ items, ∀ v ∈ item, h.Holds element v := by
  constructor
  · rintro hfits item hitem v rfl
    cases hfits with
    | vector hitems => exact hitems v hitem
  · exact fun hitems => .vector fun v hv => hitems _ hv v rfl

/-! ### Well-typed heaps -/

instance : Decidable (h.Holds τ r) := decidable_of_iff _ holds_iff.symm

instance : ∀ yield v, Decidable (h.YieldFits yield v)
  | none, none => isTrue trivial
  | some τ, some v => inferInstanceAs (Decidable (h.Holds τ v))
  | none, some _ | some _, none => isFalse id

instance {key : AtomType} {yield : Option HostType} {a : Atom} {e : Entry} :
    Decidable (h.EntryFits key yield a e) :=
  decidable_of_iff _ entryFits_iff.symm

instance : ∀ τ c, Decidable (h.Fits τ c)
  | .atom _, .atom _ => decidable_of_iff _ fits_atom_iff.symm
  | .real _, .real _ _ => decidable_of_iff _ fits_real_iff.symm
  | .record .., .record _ => decidable_of_iff _ fits_record_iff.symm
  | .table .., .table _ => decidable_of_iff _ fits_table_iff.symm
  | .vector _, .vector _ => decidable_of_iff _ fits_vector_iff.symm
  | .atom _, .real .. | .atom _, .record _ | .atom _, .table _ | .atom _, .vector _
  | .real _, .atom _ | .real _, .record _ | .real _, .table _ | .real _, .vector _
  | .record .., .atom _ | .record .., .real .. | .record .., .table _ | .record .., .vector _
  | .table .., .atom _ | .table .., .real .. | .table .., .record _ | .table .., .vector _
  | .vector _, .atom _ | .vector _, .real .. | .vector _, .record _ | .vector _, .table _ =>
      isFalse fun hfits => by cases hfits

instance (h : Heap) : Decidable h.WellTyped :=
  inferInstanceAs (Decidable (∀ r < h.cells.size, h.Fits (h.typeOf r) (h.contentOf r)))

end Heap

/-! ### Sorted tables -/

instance (entries : Entries Entry) : Decidable entries.Sorted :=
  inferInstanceAs (Decidable (entries.Pairwise fun x y => x.1.compare y.1 = .lt))

/-- If the content is that of a table, its entries are sorted. -/
def Content.Sorted : Content → Prop
  | .table entries => entries.Sorted
  | .atom _ | .real .. | .record _ | .vector _ => True

instance : DecidablePred Content.Sorted
  | .table entries => inferInstanceAs (Decidable entries.Sorted)
  | .atom _ | .real .. | .record _ | .vector _ => isTrue trivial

theorem Heap.ordered_iff {h : Heap} :
    h.Ordered ↔ ∀ r < h.cells.size, (h.contentOf r).Sorted := by
  constructor
  · intro hh r _
    cases hr : h.contentOf r with
    | table entries => exact hh r entries hr
    | _ => trivial
  · intro hh r entries hr
    have hlt : r < h.cells.size := by
      refine Nat.lt_of_not_le fun hle => ?_
      rw [contentOf, cell_of_size_le hle] at hr
      cases hr
    have hsorted := hh r hlt
    rwa [hr] at hsorted

instance (h : Heap) : Decidable h.Ordered := decidable_of_iff _ Heap.ordered_iff.symm

end HostView
