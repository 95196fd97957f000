import HostView.Proofs.Exposure.RegularImages

/-! # Larger masks

A mask that asks for more attributes exposes fewer fields. The snapshot of a value under the larger
mask is the one under the smaller mask without some members of records; nothing is added, changed or
moved, and tables, sets and vectors keep all that they have.
-/

namespace HostView

namespace Mask

/-- The mask asks for nothing that the other does not ask for, too. -/
instance : LE Mask := ⟨fun mask₁ mask₂ => mask₁.bits &&& mask₂.bits = mask₁.bits⟩

variable {mask₁ mask₂ : Mask} {a : Attributes}

/-- What a mask exposes, a smaller mask exposes as well. -/
theorem exposes_of_le (hmasks : mask₁ ≤ mask₂) (hexposes : mask₂.exposes a = true) :
    mask₁.exposes a = true := by
  have hincluded : mask₁.bits &&& mask₂.bits = mask₁.bits := hmasks
  have hcarried : a.bits &&& mask₂.bits = mask₂.bits := of_decide_eq_true hexposes
  refine decide_eq_true ?_
  calc
    a.bits &&& mask₁.bits = a.bits &&& (mask₂.bits &&& mask₁.bits) := by
      rw [UInt32.and_comm mask₂.bits, hincluded]
    _ = mask₂.bits &&& mask₁.bits := by rw [← UInt32.and_assoc, hcarried]
    _ = mask₁.bits := by rw [UInt32.and_comm, hincluded]

end Mask

namespace Image

variable {mask₁ mask₂ : Mask} {i : Image}

/-- Of the first data, a snapshot of the image, the second is what is left when some members of records
are taken away, at any depth. -/
inductive Pruned : Image → Plain → Plain → Prop
  | whole {i : Image} {p : Plain} : Pruned i p p
  | record {τ : HostType} {parts : List (Part Image)} {members members' : List (String × Plain)}
      (hdistinct : (members.map (·.1)).Nodup)
      (hnames : (members'.map (·.1)).Sublist (members.map (·.1)))
      (hparts : ∀ member ∈ members, ∃ part ∈ parts, part.name = member.1 ∧ part.content.isSome)
      (hmembers : ∀ part ∈ parts, ∀ i, part.content = some i → ∀ p p',
        (part.name, p) ∈ members → (part.name, p') ∈ members' → Pruned i p p') :
      Pruned (.record τ parts) (.object members) (.object members')
  | table {key : AtomType} {yield : HostType} {entries : List (Atom × Option Image)}
      {members members' : List (String × Plain)}
      (hlength : members.length = (entries.filterMap (·.2)).length)
      (hnames : members'.map (·.1) = members.map (·.1))
      (hyields : ∀ (n : Nat) (i : Image) (x x' : String × Plain),
        (entries.filterMap (·.2))[n]? = some i → members[n]? = some x → members'[n]? = some x' →
          Pruned i x.2 x'.2) :
      Pruned (.table key (some yield) entries) (.object members) (.object members')
  | vector {element : HostType} {slots : List (Option Image)} {items items' : List Plain}
      (hlength : items.length = slots.length) (hlength' : items'.length = slots.length)
      (hunset : ∀ n : Nat, slots[n]? = some none → items'[n]? = items[n]?)
      (hitems : ∀ (n : Nat) (i : Image) (p p' : Plain), slots[n]? = some (some i) →
        items[n]? = some p → items'[n]? = some p' → Pruned i p p') :
      Pruned (.vector element slots) (.array items) (.array items')

/-- Fewer fields are shown under a larger mask, in the same order. -/
theorem names_snapshotParts_of_le (hmasks : mask₁ ≤ mask₂) (parts : List (Part Image)) :
    ((snapshotParts mask₂ parts).map (·.1)).Sublist ((snapshotParts mask₁ parts).map (·.1)) := by
  induction parts with
  | nil => exact .slnil
  | cons part parts ih =>
      obtain ⟨name, attributes, content⟩ := part
      cases content with
      | none => exact ih
      | some i =>
          by_cases hexposes : mask₂.exposes attributes = true
          · rw [snapshotParts, snapshotParts, if_pos hexposes,
              if_pos (Mask.exposes_of_le hmasks hexposes)]
            exact ih.cons_cons name
          · rw [snapshotParts, snapshotParts, if_neg hexposes]
            split
            next => exact ih.cons name
            next => exact ih

/-- In a snapshot the part of a name has the snapshot of its content. -/
theorem snapshot_of_mem {parts : List (Part Image)} (hdistinct : (parts.map (·.name)).Nodup)
    {part : Part Image} (hpart : part ∈ parts) (hi : part.content = some i) {mask : Mask} {p : Plain}
    (hmember : (part.name, p) ∈ snapshotParts mask parts) : p = i.snapshot mask := by
  obtain ⟨other, hother, -, j, hj, heq⟩ := mem_snapshotParts.mp hmember
  obtain ⟨hname, rfl⟩ := Prod.mk.inj heq
  obtain rfl : part = other := List.inj_on_of_nodup_map hdistinct hpart hother hname
  rw [hi] at hj
  rw [Option.some.inj hj]

/-- The members of the snapshot of a table are the snapshots of its yields. -/
theorem values_snapshotEntries (mask : Mask) (key : AtomType)
    (entries : List (Atom × Option Image)) :
    (snapshotEntries mask key entries).map (·.2) = (entries.filterMap (·.2)).map (snapshot mask) := by
  rw [snapshotEntries_eq, List.map_filterMap, List.map_filterMap]
  simp only [Option.map_map, Function.comp_def]

theorem snapshotEntries_getElem? {mask : Mask} {key : AtomType}
    {entries : List (Atom × Option Image)} {n : Nat} {x : String × Plain}
    (hi : (entries.filterMap (·.2))[n]? = some i)
    (hx : (snapshotEntries mask key entries)[n]? = some x) : x.2 = i.snapshot mask := by
  have hvalue := congrArg (·[n]?) (values_snapshotEntries mask key entries)
  simpa [hi, hx] using hvalue

/-- The snapshot of a regular image under a larger mask is the one under the smaller mask, pruned. -/
theorem Regular.pruned (h : i.Regular) (hmasks : mask₁ ≤ mask₂) :
    i.Pruned (i.snapshot mask₁) (i.snapshot mask₂) := by
  induction h with
  | atom | real | set => exact .whole
  | record hdistinct _ _ ih =>
      refine .record (hdistinct.sublist (names_snapshotParts mask₁ _))
        (names_snapshotParts_of_le hmasks _) (fun member hmember => ?_) ?_
      · obtain ⟨part, hpart, -, i, hi, rfl⟩ := mem_snapshotParts.mp hmember
        exact ⟨part, hpart, rfl, Option.isSome_of_eq_some hi⟩
      · intro part hpart i hi p p' hp hp'
        rw [snapshot_of_mem hdistinct hpart hi hp, snapshot_of_mem hdistinct hpart hi hp']
        exact ih part hpart i hi
  | @table key yield entries _ ih =>
      refine .table ?_ ?_ fun n i x x' hi hx hx' => ?_
      · simpa using congrArg List.length (values_snapshotEntries mask₁ key entries)
      · simp only [snapshotEntries_eq, List.map_filterMap, Option.map_map, Function.comp_def]
      · obtain ⟨e, he, heq⟩ := List.mem_filterMap.mp (List.mem_of_getElem? hi)
        rw [snapshotEntries_getElem? hi hx, snapshotEntries_getElem? hi hx']
        exact ih e he i heq
  | vector _ _ ih =>
      rw [snapshot, snapshot, snapshotItems_eq, snapshotItems_eq]
      refine .vector (by simp) (by simp) (fun n hn => by simp [hn]) fun n i p p' hi hp hp' => ?_
      obtain rfl : i.snapshot mask₁ = p := by simpa [hi] using hp
      obtain rfl : i.snapshot mask₂ = p' := by simpa [hi] using hp'
      exact ih _ (List.mem_of_getElem? hi) i rfl

end Image

end HostView
