import HostView.Proofs.Exposure.Representation
import HostView.Proofs.Exposure.Tables

/-! # Live records

What a live record answers at the name of a declared field. The name is looked up in the cache, which
may gain a layout on the way; what is found there is the field itself, as the names are distinct.
-/

namespace HostView.Script

variable {m : Machine} {call : Caller} {target : ObjectId} {r : Receiver}
  {fields : List (Field HostType)} {slots : List (Option Ref)} {name : String}

/-! ### Looking up fields -/

/-- The field of the name that the object of a record shows, as the look-up finds it. -/
def Machine.shownField? (m : Machine) (r : Receiver) (name : String) :
    Option (Nat × Field HostType) := do
  let type := m.heap.typeOf r.value
  let offset ← (m.offsets.lookup nameHash type name).1
  let field ← type.fields[offset]?
  if r.mask.exposes field.attributes then some (offset, field) else none

/-- The machine after the look-up of a field. -/
def Machine.lookedUp (m : Machine) (r : Receiver) (name : String) : Machine :=
  { m with offsets := (m.offsets.lookup nameHash (m.heap.typeOf r.value) name).2 }

theorem exposedField_succeeds (call : Caller) (m : Machine) (r : Receiver) (name : String) :
    Succeeds call m (exposedField r name) (m.shownField? r name) (m.lookedUp r name) := rfl

/-! ### Records by name -/

section

variable (hreceiver : m.receiver? target = some r) (hkind : r.kind = .record)

include hreceiver hkind

/-- A record is read at the name. -/
theorem hostGet_field (name : String) :
    SameOn m (hostGet target (.name name)) (readField r name) := by
  obtain ⟨p, hp, hsymbol⟩ := PropertyName.ofKey_name name
  have hrender := PropertyName.render_of_ofKey hp
  unfold hostGet
  apply SameOn.get_bind
  rw [hreceiver]
  apply SameOn.classify hp
  rw [hkind]
  cases p with
  | symbol s => exact absurd rfl (hsymbol s)
  | index | name => exact hrender ▸ .refl

/-- A record has the fields that it shows, as far as they are set. -/
theorem hostHas_field (name : String) :
    SameOn m (hostHas target (.name name)) (do
      match ← exposedField r name with
      | none => return false
      | some (offset, _) =>
        match (← get).heap.field r.value offset with
        | .ok (some _) => return true
        | _ => return false) := by
  obtain ⟨p, hp, hsymbol⟩ := PropertyName.ofKey_name name
  have hrender := PropertyName.render_of_ofKey hp
  unfold hostHas
  apply SameOn.get_bind
  rw [hreceiver]
  apply SameOn.classify hp
  rw [hkind]
  cases p with
  | symbol s => exact absurd rfl (hsymbol s)
  | index | name => exact hrender ▸ .refl

/-- Every field that a record shows is described, whether it is set or not. -/
theorem hostProperty_field (name : String) :
    SameOn m (hostProperty target (.name name)) (do
      match ← exposedField r name with
      | none => return none
      | some (offset, _) => return some (.plain (← fieldValue r offset))) := by
  obtain ⟨p, hp, hsymbol⟩ := PropertyName.ofKey_name name
  have hrender := PropertyName.render_of_ofKey hp
  unfold hostProperty
  apply SameOn.get_bind
  rw [hreceiver]
  apply SameOn.classify hp
  rw [hkind]
  cases p with
  | symbol s => exact absurd rfl (hsymbol s)
  | index | name => exact hrender ▸ .refl

/-- A field of a record is cleared by deleting it, if the record shows it. -/
theorem hostDelete_field (name : String) :
    SameOn m (hostDelete target (.name name)) (do
      match ← exposedField r name with
      | some (offset, _) => changeHost fun h => h.setField r.value offset none
      | none => return ()) := by
  obtain ⟨p, hp, hsymbol⟩ := PropertyName.ofKey_name name
  have hrender := PropertyName.render_of_ofKey hp
  unfold hostDelete
  apply SameOn.get_bind
  rw [hreceiver]
  apply SameOn.classify hp
  rw [hkind]
  cases p with
  | symbol s => exact absurd rfl (hsymbol s)
  | index | name => exact hrender ▸ .refl

end

/-- The object stands for a record with the given fields and slots. -/
structure Machine.Fronts (m : Machine) (target : ObjectId) (r : Receiver)
    (fields : List (Field HostType)) (slots : List (Option Ref)) : Prop where
  receiver : m.receiver? target = some r
  kind : r.kind = .record
  cell_eq : ∃ d record, m.heap.cell r.value = ⟨.record d record fields, .record slots⟩

/-- A field of the given name that a mask exposes, with its offset. -/
def exposedAt? (mask : Mask) (fields : List (Field HostType)) (name : String) :
    Option (Nat × Field HostType) := do
  let offset ← fieldOffset? fields name
  let field ← fields[offset]?
  if mask.exposes field.attributes then some (offset, field) else none

/-- Of distinct names each leads to its own field. -/
theorem fieldOffset?_eq {i : Nat} {f : Field HostType} (hdistinct : (fields.map (·.name)).Nodup)
    (hf : fields[i]? = some f) : fieldOffset? fields f.name = some i := by
  obtain ⟨hi, hat⟩ := List.getElem?_eq_some_iff.mp hf
  -- an earlier field of the same name would have to be the same field
  apply List.findIdx?_eq_some_iff_getElem.mpr
  refine ⟨hi, decide_eq_true (congrArg Field.name hat), fun j hj heq => ?_⟩
  have hnames : (fields.map (·.name))[i]? = (fields.map (·.name))[j]? := by
    have hname := of_decide_eq_true heq
    simp [hf, List.getElem?_eq_getElem (Nat.lt_trans hj hi), hname]
  exact absurd ((List.getElem?_inj (by simpa using hi) hdistinct).mp hnames) (Nat.ne_of_gt hj)

/-- It leads there through a mask that exposes the field. -/
theorem exposedAt?_eq {mask : Mask} {i : Nat} {f : Field HostType}
    (hdistinct : (fields.map (·.name)).Nodup) (hf : fields[i]? = some f)
    (hexposes : mask.exposes f.attributes = true) : exposedAt? mask fields f.name = some (i, f) := by
  simp [exposedAt?, fieldOffset?_eq hdistinct hf, hf, hexposes]

/-- What a record holds in the exposed field of a name. -/
def heldAt? (mask : Mask) (fields : List (Field HostType)) (slots : List (Option Ref))
    (name : String) : Option Ref :=
  (exposedAt? mask fields name).bind fun x => slots[x.1]?.join

theorem heldAt?_eq {mask : Mask} {i : Nat} {f : Field HostType} {slot : Option Ref}
    (hdistinct : (fields.map (·.name)).Nodup) (hf : fields[i]? = some f)
    (hexposes : mask.exposes f.attributes = true) (hslot : slots[i]? = some slot) :
    heldAt? mask fields slots f.name = slot := by
  rw [heldAt?, exposedAt?_eq hdistinct hf hexposes, Option.bind_some, hslot, Option.join_some]

namespace Machine.Fronts

variable (h : m.Fronts target r fields slots)

include h

theorem typeOf_eq : ∃ d record, m.heap.typeOf r.value = .record d record fields := by
  obtain ⟨d, record, hcell⟩ := h.cell_eq
  exact ⟨d, record, congrArg Cell.type hcell⟩

theorem field_eq {m' : Machine} (hheap : m'.heap = m.heap) (i : Nat) :
    (m'.heap.field r.value i).toOption = slots[i]? := by
  obtain ⟨d, record, hcell⟩ := h.cell_eq
  simp only [hheap, Heap.field, Heap.recordParts, hcell, bind, Except.bind]
  cases slots[i]? <;> rfl

/-- The record names the fields that its mask exposes. -/
theorem hostKeys_gives (call : Caller) : Succeeds call m (hostKeys target)
    ((fields.filter fun f => r.mask.exposes f.attributes).map (·.name)) m := by
  obtain ⟨d, record, htype⟩ := h.typeOf_eq
  have hnames : shownNames m.heap r =
      (fields.filter fun f => r.mask.exposes f.attributes).map (·.name) := by
    rw [shownNames, h.kind, htype]
    rfl
  unfold hostKeys
  apply Succeeds.get_bind
  rw [h.receiver, Option.map_some, Option.getD_some, hnames]
  exact .pure

variable (hm : m.Coherent) (hdistinct : (fields.map (·.name)).Nodup)

include hm hdistinct

/-- The exposed field of a name is found. No more than the cache changes. -/
theorem exposedField_gives (call : Caller) (name : String) :
    ∃ m', Succeeds call m (exposedField r name) (exposedAt? r.mask fields name) m' ∧
      m.Grows (fun _ => True) m' := by
  obtain ⟨d, record, htype⟩ := h.typeOf_eq
  obtain ⟨offsets, hfind, hm'⟩ := cachedOffset_gives call hm htype hdistinct name
  refine ⟨{ m with offsets }, ?_, ⟨.refl _, rfl, .refl _, id, fun _ => hm'⟩⟩
  unfold exposedField
  apply Succeeds.get_bind
  refine .bind hfind ?_
  rw [htype]
  exact .pure

/-- A record has a property exactly for the exposed fields that are set. -/
theorem hostHas_gives (call : Caller) (name : String) :
    ∃ m', Succeeds call m (hostHas target (.name name)) (heldAt? r.mask fields slots name).isSome m' ∧
      m.Grows (fun _ => True) m' := by
  obtain ⟨m', hfound, hgrows⟩ := h.exposedField_gives hm hdistinct call name
  refine ⟨m', (hostHas_field h.receiver h.kind name).succeeds (.bind hfound ?_), hgrows⟩
  rw [heldAt?]
  generalize exposedAt? r.mask fields name = found
  cases found with
  | none => exact .pure
  | some x =>
      have hfield := h.field_eq hgrows.heap x.1
      apply Succeeds.get_bind
      rw [Option.bind_some, ← hfield]
      rcases m'.heap.field r.value x.1 with fault | (_ | v) <;> exact .pure

/-- An exposed field that is set is read as its value is shown, under the mask of the record. -/
theorem hostGet_gives (call : Caller) {v : Ref} (hheld : heldAt? r.mask fields slots name = some v) :
    ∃ m', m.Grows (fun _ => True) m' ∧ ∀ {w m''}, Succeeds call m' (wrapValue r.mask v) w m'' →
      Succeeds call m (hostGet target (.name name)) (.value w) m'' := by
  obtain ⟨⟨i, f⟩, hexposed, hslot⟩ := Option.bind_eq_some_iff.mp hheld
  obtain ⟨m', hfound, hgrows⟩ := h.exposedField_gives hm hdistinct call name
  rw [hexposed] at hfound
  refine ⟨m', hgrows, fun hshow => (hostGet_field h.receiver h.kind name).succeeds ?_⟩
  refine .bind hfound (.bind ?_ .pure)
  have hfield := h.field_eq hgrows.heap i
  rw [Option.join_eq_some_iff.mp hslot] at hfield
  unfold fieldValue
  apply Succeeds.get_bind
  generalize m'.heap.field r.value i = found at hfield
  cases found with
  | error fault => cases hfield
  | ok slot =>
      cases hfield
      exact hshow

end Machine.Fronts

/-! ### Changes that are refused -/

theorem changeHost_throws {change : Heap → Except HostFault Heap} {fault : HostFault}
    (hchange : change m.heap = .error fault) :
    Throws call m (changeHost change) (.refused (.host fault)) m := by
  have hrefuse : SameOn m (changeHost change) (refuse (.host fault)) := by
    unfold changeHost
    apply SameOn.get_bind
    rw [hchange]
    exact .refl
  exact hrefuse call

end HostView.Script
