import HostView.Proofs.Host.Places

/-! # Required fields

A field without the attribute of optional ones cannot be cleared, so once it is set it stays set while
the heap grows. A record is complete if all its required fields are set; it stays complete.
-/

namespace HostView.Heap

variable {h h' : Heap} {r v : Ref} {i : Nat} {f : Field HostType} {name : String}
  {fields : List (Field HostType)}

/-- The slot of the record holds a value. -/
def Filled (h : Heap) (r : Ref) (i : Nat) : Prop := ∃ v, (h.contentOf r).slot? i = some (some v)

/-- The value is there, and all its required fields are set. -/
structure Complete (h : Heap) (r : Ref) : Prop where
  lt : r < h.cells.size
  filled : ∀ i f, (h.typeOf r).fields[i]? = some f → f.attributes.isOptional = false → h.Filled r i

/-- A required field that is set stays set. -/
theorem Filled.extend (hr : h.Filled r i) (hh : h.Extends h')
    (hf : (h.typeOf r).fields[i]? = some f) (hrequired : f.attributes.isOptional = false) :
    h'.Filled r i := by
  obtain ⟨v, hv⟩ := hr
  have hgrows := hh.grows r (lt_of_field hf)
  unfold Filled
  generalize h.typeOf r = type, h.contentOf r = content, h'.contentOf r = content'
    at hf hv hgrows
  cases hgrows with
  | record hset => exact hset i f hf hrequired v hv
  | _ => cases hv

theorem Complete.extend (hr : h.Complete r) (hh : h.Extends h') : h'.Complete r where
  lt := Nat.lt_of_lt_of_le hr.lt hh.size_le
  filled i f hf hrequired := by
    rw [hh.typeOf_eq r hr.lt] at hf
    exact (hr.filled i f hf hrequired).extend hh hf hrequired

/-- A field that is unset is optional. -/
theorem Complete.optional {d : Nat} {slots : List (Option Ref)} (hr : h.Complete r)
    (hcell : h.cell r = ⟨.record d name fields, .record slots⟩) (hf : fields[i]? = some f)
    (hslot : slots[i]? = some none) : f.attributes.isOptional = true := by
  refine Bool.of_not_eq_false fun hrequired => ?_
  obtain ⟨v, hv⟩ := hr.filled i f (by rwa [typeOf, hcell]) hrequired
  rw [contentOf, hcell] at hv
  cases hslot.symm.trans hv

/-- What is no record has no field that could be missing. -/
theorem complete_of_fields_eq_nil (hr : r < h.cells.size) (hfields : (h.typeOf r).fields = []) :
    h.Complete r :=
  ⟨hr, fun i f hf => by simp [hfields] at hf⟩

/-- A field that is set to a value is set. -/
theorem filled_setField (hh : h.WellTyped) (hset : h.setField r i (some v) = .ok h') :
    h'.Filled r i := by
  obtain ⟨_, _, _, slots, f, htype, hcontent, hf, _, _, rfl⟩ := setField_eq_ok hset
  have hlt := hh.offset_lt (recordParts_eq_ok.mpr ⟨_, htype, hcontent⟩) hf
  have hr : r < h.cells.size := lt_of_contentOf_ne fun a ha => by simp [hcontent] at ha
  rw [Filled, contentOf_update_self hr]
  exact ⟨v, List.getElem?_set_self hlt⟩

/-- What is in a slot is referred to by the record. -/
theorem refersTo_of_field (hv : h.field r i = .ok (some v)) : (h.contentOf r).RefersTo v := by
  unfold field at hv
  cases hparts : h.recordParts r with
  | error fault => simp [hparts, bind, Except.bind] at hv
  | ok parts =>
      obtain ⟨name, fields, slots⟩ := parts
      obtain ⟨descriptor, -, hcontent⟩ := recordParts_eq_ok.mp hparts
      simp only [hparts, bind, Except.bind] at hv
      split at hv
      next slot hslot =>
        cases hv
        exact hcontent ▸ List.mem_of_getElem? hslot
      next => cases hv

/-- An item of a vector stays one. -/
theorem Extends.refersTo_vector (hh : h.Extends h') {items : List (Option Ref)}
    (hr : h.contentOf r = .vector items) (hv : some v ∈ items) : (h'.contentOf r).RefersTo v := by
  have hlt : r < h.cells.size := lt_of_contentOf_ne fun a ha => by simp [hr] at ha
  have hgrows := hh.grows r hlt
  generalize h'.contentOf r = content' at hgrows
  rw [hr] at hgrows
  cases hgrows with
  | vector => exact List.mem_append_left _ hv

/-! ### Setting and clearing -/

section

variable {descriptor : Nat} {record : String} (hh : h.WellTyped)
  (htype : h.typeOf r = .record descriptor record fields) (hf : fields[i]? = some f)

include hh htype

theorem WellTyped.recordParts : ∃ slots, h.recordParts r = .ok (record, fields, slots) := by
  have hfits := hh.fits r
  rw [htype] at hfits
  generalize hcontent : h.contentOf r = content at hfits
  cases hfits with
  | record => exact ⟨_, recordParts_eq_ok.mpr ⟨descriptor, htype, hcontent⟩⟩

include hf

/-- A field can be set to a value of its type. -/
theorem WellTyped.setField_succeeds (hsame : (h.typeOf v).same f.type = true) :
    ∃ h', h.setField r i (some v) = .ok h' := by
  obtain ⟨slots, hparts⟩ := hh.recordParts htype
  simp [Heap.setField, hparts, bind, Except.bind, hf, hsame]

/-- A field is cleared, or it is refused because the field is required. -/
theorem WellTyped.clearField :
    (∃ h', h.setField r i none = .ok h') ∨ f.attributes.isOptional = false ∧
      h.setField r i none = .error (.requiredField record f.name) := by
  obtain ⟨slots, hparts⟩ := hh.recordParts htype
  by_cases hoptional : f.attributes.isOptional = true
  · exact .inl (by simp [Heap.setField, hparts, bind, Except.bind, hf, hoptional])
  · exact .inr ⟨by simpa using hoptional, by simp [Heap.setField, hparts, bind, Except.bind, hf, hoptional]⟩

variable (hrequired : f.attributes.isOptional = false)

include hrequired

/-- A required field is not cleared. -/
theorem WellTyped.setField_none :
    h.setField r i none = .error (.requiredField record f.name) := by
  obtain ⟨slots, hparts⟩ := hh.recordParts htype
  simp [Heap.setField, hparts, bind, Except.bind, hf, hrequired]

theorem WellTyped.setFieldByName_none (hi : fieldOffset? fields name = some i) :
    h.setFieldByName r name none = .error (.requiredField record f.name) := by
  obtain ⟨slots, hparts⟩ := hh.recordParts htype
  simp only [Heap.setFieldByName, offsetOf, hparts, hi, bind, Except.bind]
  exact hh.setField_none htype hf hrequired

end

end HostView.Heap
