import HostView.Proofs.Host.Typing

/-! # What host operations do

Each operation that changes a heap is described once: what holds of its arguments where it succeeds,
and the heap that it leaves. Every one of them grows the heap and keeps it well typed, provided that
the references it is given lead somewhere.
-/

namespace HostView

/-! ### Entries -/

namespace Entries

variable {α : Type} {key a : Atom} {value v : α} {entries : Entries α}

theorem mem_of_find? (h : entries.find? key = some value) : ∃ k, (k, value) ∈ entries := by
  induction entries with
  | nil => simp [find?] at h
  | cons entry rest ih =>
      rw [find?] at h
      split at h
      next => cases h
      next =>
        cases h
        exact ⟨entry.1, List.mem_cons_self⟩
      next =>
        obtain ⟨k, hk⟩ := ih h
        exact ⟨k, List.mem_cons_of_mem _ hk⟩

theorem mem_insert (h : (a, v) ∈ entries.insert key value) :
    (a, v) = (key, value) ∨ (a, v) ∈ entries := by
  induction entries with
  | nil => simpa [insert] using h
  | cons entry rest ih =>
      rw [insert] at h
      split at h
      next => exact List.mem_cons.mp h
      next =>
        rcases List.mem_cons.mp h with hnew | hrest
        · exact .inl hnew
        · exact .inr (List.mem_cons_of_mem _ hrest)
      next =>
        rcases List.mem_cons.mp h with hfirst | hrest
        · exact .inr (hfirst ▸ List.mem_cons_self)
        · exact (ih hrest).imp_right (List.mem_cons_of_mem _)

theorem mem_erase (h : (a, v) ∈ entries.erase key) : (a, v) ∈ entries := by
  induction entries with
  | nil => simp [erase] at h
  | cons entry rest ih =>
      rw [erase] at h
      split at h
      next => exact h
      next => exact List.mem_cons_of_mem _ h
      next =>
        rcases List.mem_cons.mp h with hfirst | hrest
        · exact hfirst ▸ List.mem_cons_self
        · exact List.mem_cons_of_mem _ (ih hrest)

end Entries

/-- A content that refers to no other value: a scalar, or something with nothing in it. -/
def Content.Blank : Content → Prop
  | .atom _ | .real _ _ => True
  | .record slots => ∀ slot ∈ slots, slot = none
  | .table entries => entries = []
  | .vector items => ∀ item ∈ items, item = none

namespace Content

theorem blank_atom (a : Atom) : (atom a).Blank := trivial

theorem blank_real (kind : RealKind) (x : Binary64) : (real kind x).Blank := trivial

theorem blank_record (n : Nat) : (record (List.replicate n none)).Blank :=
  fun _ hslot => List.eq_of_mem_replicate hslot

theorem blank_table : (table []).Blank := rfl

theorem blank_vector : (vector []).Blank := nofun

end Content

namespace Heap

variable {h h' : Heap} {τ : HostType} {c : Content} {r s v key : Ref} {a : Atom}
  {value yield : Option Ref}

/-! ### Building -/

theorem new_eq_ok (hnew : h.new τ c = .ok (r, h')) :
    checkContent τ c = .ok () ∧ r = h.cells.size ∧ h' = (h.alloc ⟨τ, c⟩).2 := by
  rw [new] at hnew
  cases hcheck : checkContent τ c with
  | error fault => simp [hcheck, Except.map] at hnew
  | ok =>
      simp only [hcheck, Except.map, Except.ok.injEq] at hnew
      exact ⟨rfl, (congrArg Prod.fst hnew).symm, (congrArg Prod.snd hnew).symm⟩

theorem checkContent_atom {α : AtomType} (hadmits : α.admits a = true) :
    checkContent (.atom α) (.atom a) = .ok () := by
  cases α <;> cases a <;> simp_all [AtomType.admits, checkContent, Enumeration.variant?]

theorem checkContent_record (descriptor : Nat) (name : String) (fields : List (Field HostType)) :
    checkContent (.record descriptor name fields) (.record (List.replicate fields.length none)) =
      .ok () :=
  if_pos List.length_replicate

theorem checkContent_real (kind : RealKind) (x : Binary64) :
    checkContent (.real kind) (.real kind x) = .ok () :=
  if_pos rfl

/-- A content that fits its type is allocated. -/
theorem new_eq (hcheck : checkContent τ c = .ok ()) : h.new τ c = .ok (h.alloc ⟨τ, c⟩) := by
  rw [new, hcheck]
  rfl

theorem fits_of_checkContent (hcheck : checkContent τ c = .ok ()) (hblank : c.Blank) :
    h.Fits τ c := by
  unfold checkContent at hcheck
  split at hcheck
  next e index =>
    split at hcheck
    next hvariant =>
      have hindex := (List.getElem?_eq_some_iff.mp hvariant).1
      exact .atom (by simpa [AtomType.admits] using hindex)
    next => cases hcheck
  next d n fields slots =>
    split at hcheck
    next hlength =>
      refine .record hlength fun i f w _ hw => ?_
      simpa using hblank _ (List.mem_of_getElem? hw)
    next => cases hcheck
  next k l x =>
    split at hcheck
    next hkind => exact hkind ▸ .real
    next => cases hcheck
  next => exact .table fun b e he => by simp [show _ = [] from hblank] at he
  next => exact .vector fun w hw => by simpa using hblank _ hw
  next α b _ =>
    split at hcheck
    next hadmits => exact .atom hadmits
    next => cases hcheck
  next => cases hcheck

theorem extends_new (hnew : h.new τ c = .ok (r, h')) : h.Extends h' := by
  obtain ⟨-, -, rfl⟩ := new_eq_ok hnew
  exact extends_alloc h _

theorem typeOf_new (hnew : h.new τ c = .ok (r, h')) : h'.typeOf r = τ := by
  obtain ⟨-, rfl, rfl⟩ := new_eq_ok hnew
  simp [typeOf, cell_alloc]

theorem contentOf_new (hnew : h.new τ c = .ok (r, h')) : h'.contentOf r = c := by
  obtain ⟨-, rfl, rfl⟩ := new_eq_ok hnew
  simp [contentOf, cell_alloc]

theorem holds_new (hnew : h.new τ c = .ok (r, h')) : h'.Holds τ r := by
  refine ⟨?_, by rw [typeOf_new hnew]; exact HostType.same_refl τ⟩
  obtain ⟨-, rfl, rfl⟩ := new_eq_ok hnew
  simp

theorem WellTyped.new (hh : h.WellTyped) (hblank : c.Blank) (hnew : h.new τ c = .ok (r, h')) :
    h'.WellTyped := by
  obtain ⟨hcheck, -, rfl⟩ := new_eq_ok hnew
  exact hh.alloc (fits_of_checkContent hcheck hblank)

/-- Naming a variant is building the value with its index. -/
theorem newVariant_eq_ok {variant : String} (hnew : h.newVariant τ variant = .ok (r, h')) :
    ∃ index, h.new τ (.atom (.enum index)) = .ok (r, h') := by
  unfold newVariant at hnew
  split at hnew
  next e =>
    split at hnew
    next index _ => exact ⟨index, hnew⟩
    next => cases hnew
  next => cases hnew

/-! ### Records -/

theorem recordParts_eq_ok {name : String} {fields : List (Field HostType)}
    {slots : List (Option Ref)} :
    h.recordParts r = .ok (name, fields, slots) ↔
      ∃ descriptor, h.typeOf r = .record descriptor name fields ∧ h.contentOf r = .record slots := by
  simp only [recordParts, cell_eq]
  constructor
  · intro hparts
    split at hparts
    next heq =>
      cases hparts
      exact ⟨_, Cell.mk.inj heq⟩
    next => cases hparts
  · rintro ⟨descriptor, htype, hcontent⟩
    rw [htype, hcontent]

/-- A field is set to a value of its type, or cleared if it is optional. -/
theorem setField_eq_ok {offset : Nat} (hset : h.setField r offset value = .ok h') :
    ∃ descriptor name fields slots f,
      h.typeOf r = .record descriptor name fields ∧ h.contentOf r = .record slots ∧
      fields[offset]? = some f ∧ (∀ v, value = some v → (h.typeOf v).same f.type = true) ∧
      (value = none → f.attributes.isOptional = true) ∧
      h' = h.update r (.record (slots.set offset value)) := by
  unfold setField at hset
  cases hparts : h.recordParts r with
  | error fault => simp [hparts, bind, Except.bind] at hset
  | ok parts =>
      obtain ⟨name, fields, slots⟩ := parts
      obtain ⟨descriptor, htype, hcontent⟩ := recordParts_eq_ok.mp hparts
      simp only [hparts, bind, Except.bind] at hset
      split at hset
      next => cases hset
      next f hf =>
        refine ⟨descriptor, name, fields, slots, f, htype, hcontent, hf, ?_⟩
        cases value with
        | some w =>
            simp only at hset
            split at hset
            next hsame =>
              cases hset
              exact ⟨by rintro v ⟨⟩; exact hsame, by simp, rfl⟩
            next => cases hset
        | none =>
            simp only at hset
            split at hset
            next hoptional =>
              cases hset
              exact ⟨by simp, fun _ => hoptional, rfl⟩
            next => cases hset

theorem extends_setField {offset : Nat} (hset : h.setField r offset value = .ok h') :
    h.Extends h' := by
  obtain ⟨_, _, fields, _, f, htype, hcontent, hf, _, hclear, rfl⟩ := setField_eq_ok hset
  refine extends_update (htype ▸ hcontent ▸ .record fun i g hg hrequired v hv => ?_)
  by_cases hi : offset = i
  · subst hi
    obtain rfl : f = g := Option.some.inj (hf.symm.trans hg)
    have hlt := (List.getElem?_eq_some_iff.mp hv).1
    cases value with
    | some w => exact ⟨w, List.getElem?_set_self hlt⟩
    | none => simp [hclear rfl] at hrequired
  · exact ⟨v, by rwa [List.getElem?_set_ne hi]⟩

theorem WellTyped.setField {offset : Nat} (hh : h.WellTyped)
    (hvalue : ∀ v, value = some v → v < h.cells.size)
    (hset : h.setField r offset value = .ok h') : h'.WellTyped := by
  obtain ⟨descriptor, name, fields, slots, f, htype, hcontent, hf, hsame, -, rfl⟩ :=
    setField_eq_ok hset
  refine hh.update (extends_setField hset) ?_
  have hfits := hh.fits r
  rw [htype, hcontent] at hfits
  rw [htype]
  cases hfits with
  | record hlength hslots =>
      refine .record (by simpa using hlength) fun i g w hg hw => ?_
      by_cases hi : offset = i
      · subst hi
        obtain rfl : f = g := Option.some.inj (hf.symm.trans hg)
        rw [List.getElem?_set] at hw
        simp only [↓reduceIte] at hw
        split at hw
        next => exact ⟨hvalue w (Option.some.inj hw), hsame w (Option.some.inj hw)⟩
        next => cases hw
      · rw [List.getElem?_set_ne hi] at hw
        exact hslots i g w hg hw

/-- The slot that a field is written to is there: its index needs no check of its own. -/
theorem WellTyped.offset_lt {name : String} {fields : List (Field HostType)}
    {slots : List (Option Ref)} {offset : Nat} {f : Field HostType} (hh : h.WellTyped)
    (hparts : h.recordParts r = .ok (name, fields, slots)) (hf : fields[offset]? = some f) :
    offset < slots.length := by
  obtain ⟨descriptor, htype, hcontent⟩ := recordParts_eq_ok.mp hparts
  have hfits := hh.fits r
  rw [htype, hcontent] at hfits
  cases hfits with
  | record hlength _ => exact hlength ▸ (List.getElem?_eq_some_iff.mp hf).1

/-! ### Tables -/

theorem tableParts_eq_ok {keyType : AtomType} {yieldType : Option HostType}
    {entries : Entries Entry} :
    h.tableParts r = .ok (keyType, yieldType, entries) ↔
      h.typeOf r = .table keyType yieldType ∧ h.contentOf r = .table entries := by
  simp only [tableParts, cell_eq]
  constructor
  · intro hparts
    split at hparts
    next heq =>
      cases hparts
      exact Cell.mk.inj heq
    next => cases hparts
  · rintro ⟨htype, hcontent⟩
    rw [htype, hcontent]

theorem atomOf_eq_ok : h.atomOf key = .ok a ↔ h.contentOf key = .atom a := by
  unfold atomOf
  split <;> simp_all

theorem keyAtom_eq_ok {keyType : AtomType} :
    h.keyAtom keyType key = .ok a ↔
      (h.typeOf key).same (.atom keyType) = true ∧ h.contentOf key = .atom a := by
  unfold keyAtom
  split <;> simp_all [atomOf_eq_ok]

theorem checkYield_eq_ok {yieldType : Option HostType} (hyield : ∀ v, yield = some v → v < h.cells.size)
    (hcheck : h.checkYield yieldType yield = .ok ()) : h.YieldFits yieldType yield := by
  cases yieldType <;> cases yield <;> simp only [checkYield, YieldFits] at hcheck ⊢
  case none.some => cases hcheck
  case some.none => cases hcheck
  case some.some τ v =>
    split at hcheck
    next hsame => exact ⟨hyield v rfl, hsame⟩
    next => cases hcheck

/-- An entry is put under the atom of its key. -/
theorem tableAssign_eq_ok (hassign : h.tableAssign r key yield = .ok h') :
    ∃ keyType yieldType entries a,
      h.typeOf r = .table keyType yieldType ∧ h.contentOf r = .table entries ∧
      h.keyAtom keyType key = .ok a ∧ h.checkYield yieldType yield = .ok () ∧
      h' = h.update r (.table (entries.insert a ⟨key, yield⟩)) := by
  unfold tableAssign at hassign
  cases hparts : h.tableParts r with
  | error fault => simp [hparts, bind, Except.bind] at hassign
  | ok parts =>
      obtain ⟨keyType, yieldType, entries⟩ := parts
      obtain ⟨htype, hcontent⟩ := tableParts_eq_ok.mp hparts
      simp only [hparts, bind, Except.bind] at hassign
      split at hassign
      next => cases hassign
      next a hatom =>
        split at hassign
        next => cases hassign
        next hcheck =>
          cases hassign
          exact ⟨keyType, yieldType, entries, a, htype, hcontent, hatom, hcheck, rfl⟩

theorem extends_tableAssign (hassign : h.tableAssign r key yield = .ok h') : h.Extends h' := by
  obtain ⟨_, _, _, _, _, hcontent, _, _, rfl⟩ := tableAssign_eq_ok hassign
  exact extends_update (hcontent ▸ .table)

theorem WellTyped.tableAssign (hh : h.WellTyped) (hkey : key < h.cells.size)
    (hyield : ∀ v, yield = some v → v < h.cells.size)
    (hassign : h.tableAssign r key yield = .ok h') : h'.WellTyped := by
  obtain ⟨keyType, yieldType, entries, a, htype, hcontent, hatom, hcheck, rfl⟩ :=
    tableAssign_eq_ok hassign
  obtain ⟨hsame, hcontentKey⟩ := keyAtom_eq_ok.mp hatom
  refine hh.update (extends_tableAssign hassign) ?_
  have hfits := hh.fits r
  rw [htype, hcontent] at hfits
  rw [htype]
  cases hfits with
  | table hentries =>
      refine .table fun b e he => ?_
      rcases Entries.mem_insert he with hnew | hold
      · cases hnew
        exact ⟨⟨hkey, hsame⟩, hcontentKey, checkYield_eq_ok hyield hcheck⟩
      · exact hentries b e hold

/-- An entry is taken out of a table. -/
theorem tableErase_eq_ok {present : Bool} (herase : h.tableErase r a = .ok (present, h')) :
    ∃ keyType yieldType entries,
      h.typeOf r = .table keyType yieldType ∧ h.contentOf r = .table entries ∧
      present = (entries.find? a).isSome ∧ h' = h.update r (.table (entries.erase a)) := by
  unfold tableErase at herase
  cases hparts : h.tableParts r with
  | error fault => simp [hparts, bind, Except.bind] at herase
  | ok parts =>
      obtain ⟨keyType, yieldType, entries⟩ := parts
      obtain ⟨htype, hcontent⟩ := tableParts_eq_ok.mp hparts
      simp only [hparts, bind, Except.bind, Except.ok.injEq, Prod.mk.injEq] at herase
      exact ⟨keyType, yieldType, entries, htype, hcontent, herase.1.symm, herase.2.symm⟩

theorem extends_tableErase {present : Bool} (herase : h.tableErase r a = .ok (present, h')) :
    h.Extends h' := by
  obtain ⟨_, _, _, _, hcontent, _, rfl⟩ := tableErase_eq_ok herase
  exact extends_update (hcontent ▸ .table)

theorem WellTyped.tableErase {present : Bool} (hh : h.WellTyped)
    (herase : h.tableErase r a = .ok (present, h')) : h'.WellTyped := by
  obtain ⟨keyType, yieldType, entries, htype, hcontent, -, rfl⟩ := tableErase_eq_ok herase
  refine hh.update (extends_tableErase herase) ?_
  have hfits := hh.fits r
  rw [htype, hcontent] at hfits
  rw [htype]
  cases hfits with
  | table hentries => exact .table fun b e he => hentries b e (Entries.mem_erase he)

/-- Removing a key is taking out the entry at its atom. -/
theorem tableRemove_eq_ok {present : Bool} (hremove : h.tableRemove r key = .ok (present, h')) :
    ∃ a, h.contentOf key = .atom a ∧ h.tableErase r a = .ok (present, h') := by
  unfold tableRemove at hremove
  cases hparts : h.tableParts r with
  | error fault => simp [hparts, bind, Except.bind] at hremove
  | ok parts =>
      obtain ⟨keyType, yieldType, entries⟩ := parts
      simp only [hparts, bind, Except.bind] at hremove
      split at hremove
      next => cases hremove
      next a hatom => exact ⟨a, (keyAtom_eq_ok.mp hatom).2, hremove⟩

/-! ### Vectors -/

/-- An item of the element type is added at the end. -/
theorem vectorPush_eq_ok (hpush : h.vectorPush r v = .ok h') :
    ∃ element items, h.typeOf r = .vector element ∧ h.contentOf r = .vector items ∧
      (h.typeOf v).same element = true ∧ h' = h.update r (.vector (items ++ [some v])) := by
  simp only [vectorPush, cell_eq] at hpush
  split at hpush
  next element items heq =>
    split at hpush
    next hsame =>
      cases hpush
      simp only [Cell.mk.injEq] at heq
      exact ⟨element, items, heq.1, heq.2, hsame, rfl⟩
    next => cases hpush
  next => cases hpush

/-- An item of the element type can be added. -/
theorem WellTyped.vectorPush_succeeds {element : HostType} (hh : h.WellTyped)
    (htype : h.typeOf r = .vector element) (hsame : (h.typeOf v).same element = true) :
    ∃ h', h.vectorPush r v = .ok h' := by
  have hfits := hh.fits r
  rw [htype] at hfits
  simp only [Heap.vectorPush, cell_eq, htype]
  generalize h.contentOf r = content at hfits
  cases hfits with
  | vector => exact ⟨_, if_pos hsame⟩

theorem extends_vectorPush (hpush : h.vectorPush r v = .ok h') : h.Extends h' := by
  obtain ⟨_, _, _, hcontent, _, rfl⟩ := vectorPush_eq_ok hpush
  exact extends_update (hcontent ▸ .vector)

theorem WellTyped.vectorPush (hh : h.WellTyped) (hv : v < h.cells.size)
    (hpush : h.vectorPush r v = .ok h') : h'.WellTyped := by
  obtain ⟨element, items, htype, hcontent, hsame, rfl⟩ := vectorPush_eq_ok hpush
  refine hh.update (extends_vectorPush hpush) ?_
  have hfits := hh.fits r
  rw [htype, hcontent] at hfits
  rw [htype]
  cases hfits with
  | vector hitems =>
      refine .vector fun w hw => ?_
      rcases List.mem_append.mp hw with hold | hnew
      · exact hitems w hold
      · obtain rfl : w = v := by simpa using hnew
        exact ⟨hv, hsame⟩

end Heap

end HostView
