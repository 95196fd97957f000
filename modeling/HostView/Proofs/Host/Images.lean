import HostView.Host.Image
import HostView.Proofs.Host.Typing

/-! # Images of well-typed heaps

In a well-typed heap every reference from a value leads to a value of a type that is less deep. So
reading a value as deep as its type follows every reference to its end, and what is read has no
invalid part.
-/

namespace HostView

/-- An image without invalid parts, in which every atom is one of its type: in particular every
index of an enumeration names a variant. -/
inductive Image.Valid : Image → Prop where
  | atom {α : AtomType} {a : Atom} (hadmits : α.admits a = true) : Valid (.atom α a)
  | real {kind : RealKind} {x : Binary64} : Valid (.real kind x)
  | record {τ : HostType} {parts : List (Part Image)}
      (hparts : ∀ p ∈ parts, ∀ i, p.content = some i → Valid i) : Valid (.record τ parts)
  | table {key : AtomType} {yield : Option HostType} {entries : List (Atom × Option Image)}
      (hkeys : ∀ e ∈ entries, key.admits e.1 = true)
      (hyields : ∀ e ∈ entries, ∀ i, e.2 = some i → Valid i) : Valid (.table key yield entries)
  | vector {element : HostType} {items : List (Option Image)}
      (hitems : ∀ item ∈ items, ∀ i, item = some i → Valid i) : Valid (.vector element items)

variable (word word' : String)

/-- An atom of its type is written without the word for what is none. -/
theorem Atom.renderOr_eq {α : AtomType} {a : Atom} (hadmits : α.admits a = true) :
    a.renderOr word α = a.renderOr word' α := by
  cases a with
  | enum index =>
      cases α with
      | enum e =>
          have hindex : index < e.variants.length := by simpa [AtomType.admits] using hadmits
          simp [renderOr, Enumeration.variant?, List.getElem?_eq_getElem hindex]
      | _ => simp [AtomType.admits] at hadmits
  | _ => rfl

namespace Image

theorem renderSlot_eq {slot : Option Image}
    (hslot : ∀ i, slot = some i → i.renderOr word = i.renderOr word') :
    renderSlot word slot = renderSlot word' slot := by
  cases slot with
  | none => rfl
  | some i => exact hslot i rfl

theorem renderParts_eq {parts : List (Part Image)}
    (hparts : ∀ p ∈ parts, ∀ i, p.content = some i → i.renderOr word = i.renderOr word') :
    renderParts word parts = renderParts word' parts := by
  induction parts with
  | nil => rfl
  | cons p parts ih =>
      obtain ⟨name, attributes, content⟩ := p
      have hhead := renderSlot_eq word word' (hparts _ List.mem_cons_self)
      have htail := ih fun q hq => hparts q (List.mem_cons_of_mem _ hq)
      simp only [renderParts, hhead, htail]

theorem renderEntries_eq {key : AtomType} {entries : List (Atom × Option Image)}
    (hkeys : ∀ e ∈ entries, key.admits e.1 = true)
    (hyields : ∀ e ∈ entries, ∀ i, e.2 = some i → i.renderOr word = i.renderOr word') :
    renderEntries word key entries = renderEntries word' key entries := by
  induction entries with
  | nil => rfl
  | cons e entries ih =>
      have hkey := Atom.renderOr_eq word word' (hkeys e List.mem_cons_self)
      have htail := ih (fun q hq => hkeys q (List.mem_cons_of_mem _ hq))
        fun q hq => hyields q (List.mem_cons_of_mem _ hq)
      obtain ⟨a, _ | i⟩ := e
      · simp only [renderEntries, hkey, htail]
      · simp only [renderEntries, hkey, htail, hyields _ List.mem_cons_self i rfl]

theorem renderItems_eq {items : List (Option Image)}
    (hitems : ∀ item ∈ items, ∀ i, item = some i → i.renderOr word = i.renderOr word') :
    renderItems word items = renderItems word' items := by
  induction items with
  | nil => rfl
  | cons item items ih =>
      have hhead := renderSlot_eq word word' (hitems item List.mem_cons_self)
      have htail := ih fun q hq => hitems q (List.mem_cons_of_mem _ hq)
      simp only [renderItems, hhead, htail]

/-- A valid image is written without the word for what is invalid. -/
theorem Valid.renderOr_eq {i : Image} (h : i.Valid) :
    i.renderOr word = i.renderOr word' := by
  induction h with
  | atom hadmits => exact Atom.renderOr_eq word word' hadmits
  | real => rfl
  | record _ ih => simp only [renderOr, renderParts_eq word word' ih]
  | table hkeys _ ih => simp only [renderOr, renderEntries_eq word word' hkeys ih]
  | vector _ ih => simp only [renderOr, renderItems_eq word word' ih]

end Image

/-- The values in a content: those of fields or items, and the yields of a table. -/
def Content.slots : Content → List (Option Ref)
  | .atom _ | .real _ _ => []
  | .record slots => slots
  | .table entries => entries.map (·.2.yield)
  | .vector items => items

namespace Heap

variable {h : Heap} {τ : HostType} {r v : Ref} {n : Nat}

/-- What is in a value is there, of a type that is less deep. -/
theorem WellTyped.slot_holds (hh : h.WellTyped) (hv : some v ∈ (h.contentOf r).slots) :
    ∃ σ, h.Holds σ v ∧ σ.depth < (h.typeOf r).depth := by
  have hfits := hh.fits r
  generalize h.typeOf r = type, h.contentOf r = content at hfits hv ⊢
  cases hfits with
  | atom | real => cases hv
  | record hlength hslots =>
      obtain ⟨f, hf, hholds⟩ := exists_field_holds hlength hslots hv
      exact ⟨f.type, hholds, Nat.lt_succ_of_le (HostType.depth_le_depthOfFields hf)⟩
  | @table key yield entries hentries =>
      obtain ⟨⟨a, e⟩, hmem, hyield⟩ := List.mem_map.mp hv
      obtain ⟨σ, rfl, hholds⟩ := (hentries a e hmem).holds_yield hyield
      exact ⟨σ, hholds, Nat.lt_succ_self _⟩
  | vector hitems => exact ⟨_, hitems v hv, Nat.lt_succ_self _⟩

theorem WellTyped.slot_lt (hh : h.WellTyped) (hv : some v ∈ (h.contentOf r).slots) : v < h.cells.size :=
  let ⟨_, hholds, _⟩ := hh.slot_holds hv
  hholds.lt

theorem WellTyped.depth_lt (hh : h.WellTyped) (hv : some v ∈ (h.contentOf r).slots) :
    (h.typeOf v).depth < (h.typeOf r).depth := by
  obtain ⟨σ, hholds, hlt⟩ := hh.slot_holds hv
  rwa [HostType.depth_eq_of_same hholds.same]

/-- What holds of a value if it holds of all that is in it, holds of all values: the depth of the types
bounds how far it must be followed. -/
theorem WellTyped.depth_induction (hh : h.WellTyped) {motive : Nat → Ref → Prop}
    (step : ∀ n r, (h.typeOf r).depth ≤ n + 1 →
      (∀ v, some v ∈ (h.contentOf r).slots → motive n v) → motive (n + 1) r)
    (hdepth : (h.typeOf r).depth ≤ n) : motive n r := by
  induction n generalizing r with
  | zero => exact absurd hdepth (Nat.not_le.mpr (HostType.depth_pos _))
  | succ n ih =>
      refine step n r hdepth fun v hv => ih ?_
      have hlt := hh.depth_lt hv
      omega

/-- What is read of a value of a type reaches as deep as the type. -/
theorem WellTyped.valid_read (hh : h.WellTyped) (hdepth : (h.typeOf r).depth ≤ n) :
    (Image.read h n r).Valid := by
  refine hh.depth_induction (motive := fun n r => (Image.read h n r).Valid) ?_ hdepth
  intro n r _ hpart
  have hfits := hh.fits r
  rw [Image.read, cell_eq]
  generalize h.typeOf r = type, h.contentOf r = content at hfits hpart
  cases hfits with
  | atom hadmits => exact .atom hadmits
  | real => exact .real
  | record hlength hslots =>
      refine .record fun p hp i hi => ?_
      obtain ⟨⟨f, slot⟩, hmem, rfl⟩ := List.mem_map.mp hp
      obtain ⟨v, rfl, rfl⟩ := Option.map_eq_some_iff.mp hi
      exact hpart v (List.of_mem_zip hmem).2
  | @table key yield entries hentries =>
      refine .table (fun e he => ?_) fun e he i hi => ?_
      · obtain ⟨⟨a, entry⟩, hmem, rfl⟩ := List.mem_map.mp he
        have hentry := hentries a entry hmem
        have hkey := hh.fits entry.key
        rw [HostType.eq_atom_of_same hentry.key.same, hentry.atom] at hkey
        cases hkey with
        | atom hadmits => exact hadmits
      · obtain ⟨entry, hmem, rfl⟩ := List.mem_map.mp he
        obtain ⟨v, hv, rfl⟩ := Option.map_eq_some_iff.mp hi
        exact hpart v (List.mem_map.mpr ⟨entry, hmem, hv⟩)
  | vector hitems =>
      refine .vector fun item hitem i hi => ?_
      obtain ⟨slot, hmem, rfl⟩ := List.mem_map.mp hitem
      obtain ⟨v, rfl, rfl⟩ := Option.map_eq_some_iff.mp hi
      exact hpart v hmem

theorem WellTyped.valid_image (hh : h.WellTyped) (r : Ref) : (Image.of h r).Valid :=
  hh.valid_read (Nat.le_add_left ..)

/-- Reading deeper than the type is reads the same. -/
theorem WellTyped.read_eq (hh : h.WellTyped) {k : Nat} (hn : (h.typeOf r).depth ≤ n)
    (hk : (h.typeOf r).depth ≤ k) : Image.read h n r = Image.read h k r := by
  -- the other depth is general, as it goes down together with the first
  have hall : ∀ k, (h.typeOf r).depth ≤ k → Image.read h n r = Image.read h k r := by
    refine hh.depth_induction (motive := fun n r => ∀ k, (h.typeOf r).depth ≤ k →
      Image.read h n r = Image.read h k r) ?_ hn
    intro n r _ ih k hk
    cases k with
    | zero => exact absurd hk (Nat.not_le.mpr (HostType.depth_pos _))
    | succ k =>
        have hpart : ∀ slot ∈ (h.contentOf r).slots,
            slot.map (Image.read h n) = slot.map (Image.read h k) := by
          rintro (_ | v) hv
          · rfl
          · have hlt := hh.depth_lt hv
            rw [Option.map_some, Option.map_some, ih v hv k (by omega)]
        have hfits := hh.fits r
        rw [Image.read, Image.read, cell_eq]
        generalize h.typeOf r = type, h.contentOf r = content at hfits hpart
        cases hfits with
        | atom | real => rfl
        | record =>
            dsimp only
            congr 1
            apply List.map_congr_left
            rintro ⟨f, slot⟩ hmem
            rw [hpart slot (List.of_mem_zip hmem).2]
        | table =>
            dsimp only
            congr 1
            apply List.map_congr_left
            rintro ⟨a, e⟩ hmem
            rw [hpart e.yield (List.mem_map_of_mem hmem)]
        | vector =>
            dsimp only
            congr 1
            exact List.map_congr_left hpart
  exact hall k hk

theorem WellTyped.image_eq (hh : h.WellTyped) (hn : (h.typeOf r).depth ≤ n) :
    Image.of h r = Image.read h n r :=
  hh.read_eq (Nat.le_add_left _ _) hn

/-- The text of a value of a well-typed heap has no use for the word for what is invalid: with any
other word in its place the text is the same. -/
theorem WellTyped.render_eq (hh : h.WellTyped) (r : Ref) :
    h.render r = (Image.of h r).renderOr word :=
  (hh.valid_image r).renderOr_eq Atom.invalidWord word

end Heap

end HostView
