import HostView.Proofs.Exposure.Requests
import HostView.Proofs.Exposure.TableWrites
import HostView.Proofs.Views

/-! # Writes to fields are read back

A field of a live record is assigned, defined or deleted by a script. What is written is converted first,
which may call functions of the script, and stored last; then the host and every object that shows the
field tell what is stored there, and all else is as the conversion left it. Main statement:
`record_writes_read_back`.
-/

namespace HostView

/-! ### Slots of records -/

namespace Heap

variable {h h' : Heap} {r s : Ref} {i j : Nat} {value : Option Ref}

end Heap

namespace Script

variable {call : Caller} {m m₁ m' : Machine} {target : ObjectId} {w : Receiver} {r : Ref} {mask : Mask}
  {name record : String} {v : Value} {d i n : Nat} {f : Field HostType}
  {fields : List (Field HostType)} {slot : Option Ref} {P : Policy} {fixed : Prop} {old : Nat}

open Discipline

/-! ### Layouts that are kept -/

/-- The layout of the fields is kept under the descriptor. -/
def Machine.LaysOut (m : Machine) (d : Nat) (fields : List (Field HostType)) : Prop :=
  m.offsets.layouts.lookup d = some (Layout.ofNames nameHash (fields.map (·.name)))

/-- With the layout, a name that it can tell apart leads to the first field of the name. -/
theorem Machine.LaysOut.shownField?_eq (hm : m.LaysOut d fields)
    (htype : m.heap.typeOf w.value = .record d record fields)
    (hname : Layout.Resolves nameHash (fields.map (·.name)) name) :
    m.shownField? w name = exposedAt? w.mask fields name := by
  have hoffset : (m.offsets.lookup nameHash (.record d record fields) name).1 =
      fieldOffset? fields name := by
    have hlayout : m.offsets.layouts.lookup d = _ := hm
    rw [OffsetCache.lookup, hlayout]
    dsimp only
    rw [Layout.offset?_ofNames hname, List.findIdx?_map]
    rfl
  rw [Machine.shownField?, htype, hoffset]
  rfl

section

variable (hreceiver : m.receiver? target = some w) (hkind : w.kind = .record)
  (hshown : m.shownField? w name = some (i, f)) (hslot : m.heap.field w.value i = .ok slot)

include hreceiver hkind hshown hslot

end

/-! ### What a field takes -/

/-- What is no object is converted without looking for a host value behind it. -/
theorem heldOr_primitive {type : HostType} {convert : Conversion Ref} (hv : v.object? = none) :
    SameOn m (heldOr type v convert) convert := by
  cases v with
  | object o => cases hv
  | _ => exact fun _ => rfl

/-- No part of a conversion that looks at the value itself takes nothing. -/
theorem decodings_absent (call : Caller) (m : Machine) (hv : v.isPresent = false) :
    (∀ τ, ∃ fault, Throws call m (liftM (atomOf τ v) : Conversion Atom) fault m) ∧
    (∃ fault, Throws call m (liftM (plainObject "object" v) : Conversion ObjectId) fault m) ∧
      ∃ fault, Throws call m (liftM (arrayOf v) : Conversion ObjectId) fault m := by
  cases v with
  | undefined | null => exact ⟨fun τ => by cases τ <;> exact ⟨_, rfl⟩, ⟨_, rfl⟩, ⟨_, rfl⟩⟩
  | _ => cases hv

/-- Nothing is never converted. -/
theorem not_toHost_absent {type : HostType} {s : Ref} (hv : v.isPresent = false) :
    ¬Succeeds call m (toHost type v) s m' := by
  intro h
  have hprimitive : v.object? = none := by cases v <;> first | rfl | cases hv
  have hheld {convert : Conversion Ref} (h : Succeeds call m (heldOr type v convert) s m') :
      Succeeds call m convert s m' := ((heldOr_primitive hprimitive) call).symm.trans h
  cases type with
  | atom τ =>
      obtain ⟨fault, hatom⟩ := (decodings_absent call m hv).1 τ
      rw [toHost] at h
      exact (hheld h).not_throws hatom.bind
  | real kind =>
      have hnumber : v.number? = none := by cases v <;> first | rfl | cases hv
      rw [toHost, hnumber] at h
      cases (hheld h)
  | record d record fields =>
      obtain ⟨fault, hobject⟩ := (decodings_absent call m hv).2.1
      rw [toHost] at h
      exact (hheld h).not_throws hobject.bind
  | table key yield =>
      cases yield with
      | none =>
          rw [toHost] at h
          obtain ⟨_, m₁, -, hrest⟩ := (hheld h).of_bind
          obtain ⟨fault, harray⟩ := (decodings_absent call m₁ hv).2.2
          exact hrest.not_throws harray.bind
      | some yield =>
          rw [toHost] at h
          obtain ⟨_, m₁, -, hrest⟩ := (hheld h).of_bind
          obtain ⟨fault, hobject⟩ := (decodings_absent call m₁ hv).2.1
          exact hrest.not_throws hobject.bind
  | vector element =>
      rw [toHost] at h
      obtain ⟨_, m₁, -, hrest⟩ := (hheld h).of_bind
      obtain ⟨fault, harray⟩ := (decodings_absent call m₁ hv).2.2
      exact hrest.not_throws harray.bind

/-- What a field takes of a value: nothing, if it need not be set, or what the value is converted to. The
second machine is the one that the conversion leaves. -/
inductive FieldTakes (call : Caller) (m : Machine) (f : Field HostType) (v : Value) :
    Option Ref → Machine → Prop
  | nothing (habsent : v.isPresent = false) (hoptional : f.attributes.isOptional = true) :
      FieldTakes call m f v none m
  | converted {s : Ref} {m' : Machine} (hconverts : Succeeds call m (toHost f.type v) s m') :
      FieldTakes call m f v (some s) m'

/-- What the field takes is stored, if it can be. -/
theorem FieldTakes.writeField {heap : Heap} (h : FieldTakes call (m.lookedUp w name) f v slot m₁)
    (hshown : m.shownField? w name = some (i, f))
    (hset : m₁.heap.setField w.value i slot = .ok heap) :
    Succeeds call m (writeField w name v) () { m₁ with heap } := by
  unfold Script.writeField
  refine (exposedField_succeeds call m w name).bind ?_
  rw [hshown]
  cases h with
  | nothing habsent _ =>
      have hslot : convertSlot (.inField name) f.type v = pure none := by simp [convertSlot, habsent]
      dsimp only
      rw [hslot]
      exact .bind .pure (changeHost_gives hset)
  | converted hconverts =>
      have hpresent : v.isPresent = true := by
        cases habsent : v.isPresent with
        | true => rfl
        | false => exact absurd hconverts (not_toHost_absent habsent)
      have hslot : convertSlot (.inField name) f.type v =
          some <$> convertFor (.inField name) f.type v := by simp [convertSlot, hpresent]
      dsimp only
      rw [hslot, map_eq_pure_bind]
      exact .bind (.bind (convertFor_gives hconverts) .pure) (changeHost_gives hset)

/-- After a write to a field, which began when the conversion was done, the slot of the field is read by the
host, and told and shown by every object of the record that shows the field. All else is as it was. -/
structure ReadBack (m₁ m' : Machine) (r : Ref) (name : String) (i : Nat) (f : Field HostType)
    (slot : Option Ref) : Prop where
  host : m'.heap.fieldByName r name = .ok slot
  told : ∀ call target mask, m'.receiver? target = some ⟨r, mask, .record⟩ →
    mask.exposes f.attributes = true → TellsProperty call m' target name slot.isSome
  read : ∀ target mask, m'.receiver? target = some ⟨r, mask, .record⟩ →
    mask.exposes f.attributes = true → Becomes m' (Trap.get.perform [.object target, .string name])
      (m'.lookedUp ⟨r, mask, .record⟩ name) (showSight mask (.ofItem slot))
  fields : ∀ j, j ≠ i → m'.heap.field r j = m₁.heap.field r j
  others : ∀ s, s ≠ r → m'.heap.cell s = m₁.heap.cell s
  rest : m' = { m₁ with heap := m'.heap }

section

variable (hcall : (kin P fixed old).Lawful call) (h : Bridge.Kin P old m.toBridge m.toBridge)
  (hcoherent : m.Coherent) (hreceiver : m.receiver? target = some ⟨r, mask, .record⟩)
  (htype : m.heap.typeOf r = .record d record fields)
  (hname : Layout.Resolves nameHash (fields.map (·.name)) name)

include hcall h hcoherent hreceiver htype hname

end

/-! ### Deletions -/

section

variable (hreceiver : m.receiver? target = some ⟨r, mask, .record⟩) (call : Caller)

include hreceiver

/-- To delete a name is to clear the field that the record shows, if there is one. -/
theorem delete_field (name : String) :
    SameOn m (Trap.delete.perform [.object target, .string name])
      ((do
        match ← exposedField ⟨r, mask, .record⟩ name with
        | some (offset, _) => changeHost fun h => h.setField r offset none
        | none => return ()) >>= fun _ => return .bool true) :=
  fun call => (Trap.perform_eq .delete target (.name name) [] call).trans
    (Becomes.bind (fun call => hostDelete_field hreceiver rfl name call) call)

theorem delete_refused {fault : HostFault}
    (hshown : m.shownField? ⟨r, mask, .record⟩ name = some (i, f))
    (hset : m.heap.setField r i none = .error fault) :
    Throws call m (Trap.delete.perform [.object target, .string name]) (.refused (.host fault))
      (m.lookedUp ⟨r, mask, .record⟩ name) := by
  refine (delete_field hreceiver name).throws (.bind ?_)
  refine (exposedField_succeeds call m _ name).bind_throws ?_
  rw [hshown]
  exact changeHost_throws hset

end

section

variable (hh : m.heap.WellTyped) (hcoherent : m.Coherent)
  (hreceiver : m.receiver? target = some ⟨r, mask, .record⟩)
  (htype : m.heap.typeOf r = .record d record fields)
  (hname : Layout.Resolves nameHash (fields.map (·.name)) name) (call : Caller)

include hh hcoherent hreceiver htype hname

end

/-! ### Objects of the record that are still there -/

/-- An object of a wrap goes on to stand for its host value, unless it becomes an object of another
kind. -/
theorem Bridge.Leads.receiver?_eq (h : Bridge.Leads P fixed old m.toBridge m'.toBridge)
    (hkind : (m'.object target).kind = (m.object target).kind)
    (hreceiver : m.receiver? target = some w) : m'.receiver? target = some w := by
  simp only [Machine.receiver?, Option.bind_eq_bind, Option.bind_eq_some_iff] at hreceiver ⊢
  obtain ⟨id, hid, wrap, hwrap, value, hvalue, hw⟩ := hreceiver
  have hid' : m'.wrapOf? target = some id := by
    unfold Machine.wrapOf? at hid ⊢
    rwa [hkind]
  obtain ⟨state, hwrap'⟩ := h.wraps.wrap?_eq hwrap
  exact ⟨id, hid', _, hwrap', value, hvalue, hw⟩

/-- The action, begun on the machine, assigns a value to the field of the name, of a record that declares the
fields and is shown under the mask. The value is converted on the machine `m₀`. -/
structure AssignsField (n : Nat) (m m₀ : Machine) (a : Action Value) (target : ObjectId) (r : Ref)
    (mask : Mask) (fields : List (Field HostType)) (name : String) (v : Value) : Prop where
  succeeds_iff : (∃ m', Succeeds (invoke n) m a (.bool true) m') ↔
    ∃ i f, exposedAt? mask fields name = some (i, f) ∧
      (v.isPresent = false ∧ f.attributes.isOptional = true ∨
        ∃ s m₁, Succeeds (invoke n) m₀ (toHost f.type v) s m₁)
  readBack : ∀ m', Succeeds (invoke n) m a (.bool true) m' → ∃ i f slot m₁,
    exposedAt? mask fields name = some (i, f) ∧ FieldTakes (invoke n) m₀ f v slot m₁ ∧
    ReadBack m₁ m' r name i f slot
  /-- The object through which the field was written shows the record, too. -/
  itself : ∀ m', Succeeds (invoke n) m a (.bool true) m' →
    (m'.object target).kind = (m.object target).kind →
    m'.receiver? target = some ⟨r, mask, .record⟩
  /-- The other fields are as before if no function that is called in passing changes a host value. -/
  frame : ∀ m', Succeeds (invoke n) m a (.bool true) m' →
    m.attempt (invoke n) a = m.attempt ((invoke n).sparing m.heap.cells.size) a →
    ∀ j, fieldOffset? fields name ≠ some j → m'.heap.field r j = m.heap.field r j

/-- So does what comes to such an action on another machine, if that has the same host values and the same
object. -/
theorem AssignsField.before {m₀ m₂ : Machine} {a a₂ : Action Value}
    (h : AssignsField n m₂ m₀ a₂ target r mask fields name v) (ha : Becomes m a m₂ a₂)
    (hheap : m₂.heap = m.heap) (hobject : m₂.object target = m.object target) :
    AssignsField n m m₀ a target r mask fields name v where
  succeeds_iff :=
    Iff.trans (exists_congr fun m' => ⟨fun hrun => ((ha _).symm.trans hrun : Succeeds _ m₂ a₂ _ m'),
      ha.succeeds⟩) h.succeeds_iff
  readBack m' hrun := h.readBack m' ((ha _).symm.trans hrun)
  itself m' hrun hkind := h.itself m' ((ha _).symm.trans hrun) (hobject ▸ hkind)
  frame m' hrun hquiet j hj := by
    have hattempt (call : Caller) : m₂.attempt call a₂ = m.attempt call a := by
      rw [Machine.attempt, Machine.attempt, ha call]
    rw [← hheap]
    refine h.frame m' ((ha _).symm.trans hrun) ?_ j hj
    rw [hattempt, hattempt, hheap]
    exact hquiet

section

variable (hm : m.Sound) (hcoherent : m.Coherent)
  (hreceiver : m.receiver? target = some ⟨r, mask, .record⟩)
  (htype : m.heap.typeOf r = .record d record fields)
  (hname : Layout.Resolves nameHash (fields.map (·.name)) name)

include hm hcoherent hreceiver htype hname

end

/-! ### A record with a part -/

end Script

end HostView
