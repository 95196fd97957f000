import HostView.Exposure.Reading
import HostView.Proofs.Exposure.Showing

/-! # Reading live values

Whatever a live value is asked, it answers alike over kin bridges: only exposed fields, entries and
types have a part in the answer.
-/

namespace HostView.Script

open Discipline

variable {P : Policy} {fixed : Prop} {old : Nat} {b c : Bridge} {call : Caller} {e : Engine}
  {r : Receiver} {blame : Thrown → Prop}

/-! ### Parts of an answer -/

theorem cachedOffset_agrees (h : Bridge.Kin P old b c) (type : HostType) (name : String) :
    (kin P fixed old).Agrees call e b c (cachedOffset type name) (cachedOffset type name)
      (fun _ b' => b'.heap = b.heap) blame := by
  rw [h.rest]
  exact .modifyBridge rfl rfl (h.keepHeap rfl h.wraps h.snapshots h.integers)
    (Bridge.leads_of_heap_eq rfl rfl (b.offsets.extends_lookup nameHash type name)) rfl

/-- The field at the offset is declared by the type of the value, and the mask exposes it. -/
def Receiver.Shows (r : Receiver) (h : Heap) (offset : Nat) (f : Field HostType) : Prop :=
  (h.typeOf r.value).fields[offset]? = some f ∧ r.mask.exposes f.attributes = true

/-- A field that is exposed is found alike; it is one that the type declares. -/
theorem exposedField_agrees (h : Bridge.Kin P old b c) (name : String) :
    (kin P fixed old).Agrees call e b c (exposedField r name) (exposedField r name)
      (fun x b' => b'.heap = b.heap ∧
        ∀ offset f, x = some (offset, f) → r.Shows b.heap offset f) blame := by
  unfold exposedField
  refine .get_bind ?_
  simp only [← h.heap.typeOf_eq r.value]
  refine .bind (cachedOffset_agrees h _ name) fun found e' b' c' h' _ hheap => .pure h' ?_
  refine ⟨hheap, fun offset f hfound => ?_⟩
  obtain ⟨offset', -, hfound⟩ := Option.bind_eq_some_iff.mp hfound
  obtain ⟨f', hf', hfound⟩ := Option.bind_eq_some_iff.mp hfound
  split at hfound
  next hexposes =>
    cases hfound
    exact ⟨hf', hexposes⟩
  next => cases hfound

/-- The field is not hidden where the receiver may show its value. -/
theorem Receiver.Shows.not_hidden {offset : Nat} {f : Field HostType}
    (hshown : r.Shows b.heap offset f) (hr : r.Within P b) :
    ¬ Hidden (P.Shows r.value (b.heap.typeOf r.value)) f :=
  HostView.not_hidden hr.shows hshown.2

/-- A field with a name is a field of a record. -/
theorem Receiver.Shows.field_eq {h : Heap} {offset : Nat} {f : Field HostType}
    (hshown : r.Shows b.heap offset f) (hr : r.Within P b) (ht : Heap.Kin P b.heap h) :
    b.heap.field r.value offset = h.field r.value offset := by
  obtain ⟨descriptor, name, fields, htype, hf⟩ := HostType.eq_record_of_field hshown.1
  exact ht.field htype hf (hshown.not_hidden hr)

/-- The value in a slot is there, and it may be shown as the record is. -/
theorem Receiver.Shows.part {v : Ref} {offset : Nat} {f : Field HostType}
    (hshown : r.Shows b.heap offset f) (hr : r.Within P b) (h : Bridge.Kin P old b c)
    (hv : b.heap.field r.value offset = .ok (some v)) :
    v < b.heap.cells.size ∧ P.Shows v (b.heap.typeOf v) r.mask := by
  have hfits := h.heap.left.fits r.value
  have hknown := (h.known r.value v (P.knows hr.shows) ·)
  have hshows := hr.shows
  obtain ⟨hf, hexposes⟩ := hshown
  simp only [Heap.field, Heap.recordParts, Heap.cell_eq] at hv
  generalize b.heap.typeOf r.value = type, b.heap.contentOf r.value = content
    at hfits hf hv hknown hshows
  cases hfits with
  | record hlength hslots =>
      simp only [bind, Except.bind] at hv
      split at hv
      next slot hslot =>
        cases hv
        have hholds := hslots offset f v hf hslot
        exact ⟨hholds.lt, P.part hshows (.field (List.mem_of_getElem? hf) hexposes) hholds.same
          (hknown (List.mem_of_getElem? hslot))⟩
      next => cases hv
  | _ => simp [bind, Except.bind] at hv

/-- The names that are shown depend on types and keys only. -/
theorem shownNames_eq {g h : Heap} (ht : Heap.Kin P g h) : shownNames g = shownNames h := by
  funext r
  have halike := ht.alike r.value
  simp only [shownNames, Heap.cell_eq, ← ht.typeOf_eq r.value]
  generalize g.typeOf r.value = type, g.contentOf r.value = content,
    h.contentOf r.value = content' at halike
  cases halike <;> rfl

section

variable (hcall : (kin P fixed old).Lawful call) (h : Bridge.Kin P old b c)
  (hr : r.Within P b)

include hcall h hr

theorem fieldValue_agrees {offset : Nat} {f : Field HostType}
    (hshown : r.Shows b.heap offset f) :
    (kin P fixed old).Agrees call e b c (fieldValue r offset) (fieldValue r offset)
      fun _ _ => True := by
  unfold fieldValue
  refine .get_bind ?_
  simp only [← hshown.field_eq hr h.heap]
  split
  next v hv =>
    obtain ⟨hlt, hshows⟩ := hshown.part hr h hv
    exact wrapValue_agrees hcall h hlt hshows (.inl (.inl ⟨r.value, Heap.refersTo_of_field hv⟩))
  next => exact .pure h trivial

theorem snapshotFunction_agrees :
    (kin P fixed old).Agrees call e b c (snapshotFunction r) (snapshotFunction r)
      fun _ _ => True := by
  unfold snapshotFunction
  refine .bind (P := fun _ _ => True) ?_ fun number e' b' c' h' _ _ => ?_
  · rw [h.rest]
    refine .modifyBridge rfl rfl (h.keepHeap rfl h.wraps (fun p hp => ?_) h.integers)
      (Bridge.leads_of_heap_eq rfl rfl (.refl _)) trivial
    rcases Array.mem_push.mp hp with hold | rfl
    · exact h.snapshots p hold
    · exact ⟨hr.lt, hr.shows⟩
  · exact .bind (.routine hcall h' _) fun _ _ _ _ h'' _ _ => .pure h'' trivial

theorem entryValue_agrees {a : Atom} {entry : Entry}
    (hentry : b.heap.entryAt? r.value a = some entry) :
    (kin P fixed old).Agrees call e b c (entryValue r entry) (entryValue r entry)
      fun _ _ => True := by
  unfold entryValue
  split
  next v hv =>
    have hfits := h.heap.left.fits r.value
    have hknown := (h.known r.value v (P.knows hr.shows) ·)
    have hshows := hr.shows
    have hoffers : (b.heap.contentOf r.value).RefersTo v → b.Offers P v :=
      fun hv => .inl (.inl ⟨r.value, hv⟩)
    unfold Heap.entryAt? at hentry
    generalize b.heap.typeOf r.value = type, b.heap.contentOf r.value = content
      at hfits hentry hknown hshows hoffers
    cases hfits with
    | @table key yield entries hentries =>
        obtain ⟨k, hk⟩ := Entries.mem_of_find? hentry
        obtain ⟨σ, rfl, hholds⟩ := (hentries k entry hk).holds_yield hv
        have hrefers : (Content.table entries).RefersTo v := ⟨k, entry, hk, .inr hv⟩
        exact wrapValue_agrees hcall h hholds.lt (P.part hshows .yield hholds.same (hknown hrefers))
          (hoffers hrefers)
    | _ => cases hentry
  next => exact .pure h trivial

theorem unanswered_agrees (name : String) (other : Found) :
    (kin P fixed old).Agrees call e b c (unanswered r name other) (unanswered r name other)
      fun _ _ => True := by
  unfold unanswered
  split
  next =>
    exact .bind (snapshotFunction_agrees hcall h hr) fun _ _ _ _ h' _ _ => .pure h' trivial
  next => exact .pure h trivial

/-! ### Answers -/

theorem readField_agrees (name : String) :
    (kin P fixed old).Agrees call e b c (readField r name) (readField r name)
      fun _ _ => True := by
  unfold readField
  refine .bind (exposedField_agrees h name) fun found e' b' c' h' hleads hfound => ?_
  have hr' := hr.lead hleads
  split
  next offset f =>
    have hshown := hfound.1 ▸ hfound.2 offset f rfl
    exact .bind (fieldValue_agrees hcall h' hr' hshown) fun _ _ _ _ h'' _ _ => .pure h'' trivial
  next => exact unanswered_agrees hcall h' hr' name _

omit hcall hr in
theorem tableAtom_eq (name : PropertyName) :
    tableAtom ⟨e, b⟩ r name = tableAtom ⟨e, c⟩ r name := by
  simp only [tableAtom, h.heap.typeOf_eq r.value]

theorem readEntry_agrees (name : PropertyName) :
    (kin P fixed old).Agrees call e b c (readEntry r name) (readEntry r name)
      fun _ _ => True := by
  unfold readEntry
  refine .get_bind ?_
  simp only [← tableAtom_eq h name]
  split
  next => exact unanswered_agrees hcall h hr _ _
  next a _ =>
    refine .get_bind ?_
    simp only [← h.heap.entryAt? r.value a]
    split
    next entry hentry =>
      exact .bind (entryValue_agrees hcall h hr hentry) fun _ _ _ _ h' _ _ => .pure h' trivial
    next => exact unanswered_agrees hcall h hr _ _

end

section

variable (hcall : (kin P fixed old).Lawful call) (h : Bridge.Kin P old b c)

include hcall h

theorem hostGet_agrees (target : ObjectId) (k : Key) :
    (kin P fixed old).Agrees call e b c (hostGet target k) (hostGet target k)
      fun _ _ => True := by
  unfold hostGet
  refine .get_bind ?_
  rw [← h.receiver?_eq target]
  cases hr : Machine.receiver? ⟨e, b⟩ target with
  | none => exact .pure h trivial
  | some r =>
      refine .bind (.routine hcall h _) fun name e' b' c' h' hleads _ => ?_
      have hr' := (h.within hr).lead hleads
      split
      next => exact .pure h' trivial
      next => exact .pure h' trivial
      next =>
        split
        next => exact readField_agrees hcall h' hr' _
        next => exact readEntry_agrees hcall h' hr' _
        next => exact .pure h' trivial

theorem hostHas_agrees (target : ObjectId) (k : Key) :
    (kin P fixed old).Agrees call e b c (hostHas target k) (hostHas target k)
      fun _ _ => True := by
  unfold hostHas
  refine .get_bind ?_
  rw [← h.receiver?_eq target]
  cases hr : Machine.receiver? ⟨e, b⟩ target with
  | none => exact .pure h trivial
  | some r =>
      refine .bind (.routine hcall h _) fun name e' b' c' h' hleads _ => ?_
      have hr' := (h.within hr).lead hleads
      split
      next => exact .pure h' trivial
      next =>
        split
        next =>
          refine .bind (exposedField_agrees h' _) fun found e'' b'' c'' h'' hleads' hfound => ?_
          split
          next => exact .pure h'' trivial
          next offset f =>
            have hshown := hfound.1 ▸ hfound.2 offset f rfl
            refine .get_bind ?_
            simp only [← hshown.field_eq (hr'.lead hleads') h''.heap]
            split
            next => exact .pure h'' trivial
            next => exact .pure h'' trivial
        next =>
          refine .get_bind ?_
          simp only [← tableAtom_eq h' name]
          split
          next => exact .pure h' trivial
          next a _ =>
            refine .get_bind ?_
            simp only [← h'.heap.entryAt? r.value a]
            exact .pure h' trivial
        next => exact .pure h' trivial

omit hcall in
theorem hostKeys_agrees (target : ObjectId) :
    (kin P fixed old).Agrees call e b c (hostKeys target) (hostKeys target)
      fun _ _ => True := by
  unfold hostKeys
  refine .get_bind ?_
  simp only [← h.receiver?_eq target, ← shownNames_eq h.heap]
  exact .pure h trivial

theorem hostProperty_agrees (target : ObjectId) (k : Key) :
    (kin P fixed old).Agrees call e b c (hostProperty target k) (hostProperty target k)
      fun _ _ => True := by
  unfold hostProperty
  refine .get_bind ?_
  rw [← h.receiver?_eq target]
  cases hr : Machine.receiver? ⟨e, b⟩ target with
  | none => exact .pure h trivial
  | some r =>
      refine .bind (.routine hcall h _) fun name e' b' c' h' hleads _ => ?_
      have hr' := (h.within hr).lead hleads
      split
      next => exact .pure h' trivial
      next =>
        split
        next =>
          refine .bind (exposedField_agrees h' _) fun found e'' b'' c'' h'' hleads' hfound => ?_
          split
          next => exact .pure h'' trivial
          next offset f =>
            have hshown := hfound.1 ▸ hfound.2 offset f rfl
            exact .bind (fieldValue_agrees hcall h'' (hr'.lead hleads') hshown)
              fun _ _ _ _ h₃ _ _ => .pure h₃ trivial
        next =>
          refine .get_bind ?_
          simp only [← tableAtom_eq h' name]
          split
          next => exact .pure h' trivial
          next a _ =>
            refine .get_bind ?_
            simp only [← h'.heap.entryAt? r.value a]
            split
            next entry hentry =>
              exact .bind (entryValue_agrees hcall h' hr' hentry)
                fun _ _ _ _ h₃ _ _ => .pure h₃ trivial
            next => exact .pure h' trivial
        next => exact .pure h' trivial

/-- A snapshot is taken alike where the policy allows it. -/
theorem snapshotValue_agrees {value : Ref} {mask : Mask}
    (hshows : P.Shows value (b.heap.typeOf value) mask) :
    (kin P fixed old).Agrees call e b c (snapshotValue value mask) (snapshotValue value mask)
      fun _ _ => True := by
  unfold snapshotValue
  refine .get_bind ?_
  simp only [← h.heap.snapshot_image h.known hshows]
  exact .routine hcall h _

end

end HostView.Script
