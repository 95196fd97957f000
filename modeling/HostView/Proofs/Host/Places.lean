import HostView.Proofs.Host.Operations

/-! # Where host operations write

A host operation changes one place of one value: a slot of a record, the entry of a table at a key,
or the end of a vector. All other values stay as they are, and so does the rest of the value that is
changed. The value refers to what it referred to before and to what the operation was given.
-/

namespace HostView

/-! ### Atoms that compare equal -/

section

variable {a b : Address} {s t : Subnet} {p q : Port} {x y : Atom}

theorem Address.eq_of_compare (h : a.compare b = .eq) : a = b := by
  cases a <;> cases b <;> simp_all [compare, BitVec.toNat_inj]

theorem Subnet.eq_of_compare (h : s.compare t = .eq) : s = t := by
  rw [compare, Ordering.then_eq_eq] at h
  obtain ⟨hnetwork, hlength⟩ := h
  have := Address.eq_of_compare hnetwork
  cases s
  cases t
  simp_all

theorem Port.eq_of_compare (h : p.compare q = .eq) : p = q := by
  rw [compare, Ordering.then_eq_eq] at h
  obtain ⟨hnumber, hprotocol⟩ := h
  obtain ⟨number, protocol⟩ := p
  obtain ⟨number', protocol'⟩ := q
  obtain rfl : number = number' := by simpa [UInt16.toNat_inj] using hnumber
  cases protocol <;> cases protocol' <;> first | rfl | cases hprotocol

/-- Only equal atoms compare equal. -/
theorem Atom.eq_of_compare (h : x.compare y = .eq) : x = y := by
  cases x <;> cases y <;> simp_all [compare, rank, Int64.toInt_inj, UInt64.toNat_inj]
  case addr.addr => exact Address.eq_of_compare h
  case subnet.subnet => exact Subnet.eq_of_compare h
  case port.port => exact Port.eq_of_compare h

end

/-! ### References -/

namespace Content

variable {c c' : Content} {v : Ref}

/-- The content has a reference to the value. -/
def RefersTo : Content → Ref → Prop
  | .atom _, _ | .real _ _, _ => False
  | .record slots, v => some v ∈ slots
  | .table entries, v => ∃ a e, (a, e) ∈ entries ∧ (e.key = v ∨ e.yield = some v)
  | .vector items, v => some v ∈ items

theorem Blank.not_refersTo (h : c.Blank) : ¬ c.RefersTo v := by
  cases c with
  | atom | real => exact id
  | record slots => exact fun hv => nomatch h _ hv
  | table entries =>
      obtain rfl : entries = [] := h
      rintro ⟨a, e, he, -⟩
      cases he
  | vector items => exact fun hv => nomatch h _ hv

end Content

/-! ### Places -/

/-- A place of a content at which an operation may write. -/
inductive Place where
  | slot (offset : Nat)
  | entry (a : Atom)
  /-- The end of a vector. -/
  | tail

/-- The second content is the first with another thing, or nothing, at the place. -/
inductive Content.ChangedAt : Place → Content → Content → Prop where
  | slot {slots : List (Option Ref)} {offset : Nat} {value : Option Ref} :
      ChangedAt (.slot offset) (.record slots) (.record (slots.set offset value))
  | entry {before after : Entries Entry} {a : Atom} {old new : Option Entry} :
      ChangedAt (.entry a) (.table (before ++ (old.map (a, ·)).toList ++ after))
        (.table (before ++ (new.map (a, ·)).toList ++ after))
  | tail {items : List (Option Ref)} {v : Ref} :
      ChangedAt .tail (.vector items) (.vector (items ++ [some v]))

/-- What the slot of a record holds. -/
def Content.slot? : Content → Nat → Option (Option Ref)
  | .record slots, i => slots[i]?
  | _, _ => none

theorem Content.ChangedAt.slot?_eq {place : Place} {c c' : Content} {i : Nat}
    (h : ChangedAt place c c') (hi : place ≠ .slot i) : c'.slot? i = c.slot? i := by
  cases h with
  | @slot slots offset value =>
      have hne : offset ≠ i := fun heq => hi (congrArg Place.slot heq)
      simp only [slot?, List.getElem?_set_ne hne]
  | entry | tail => rfl

namespace Entries

variable {α : Type}

/-- An entry is put in one place, where there may have been one with the same key. -/
theorem insert_eq (entries : Entries α) (key : Atom) (value : α) : ∃ before old after,
    entries = before ++ (Option.map (key, ·) old).toList ++ after ∧
      entries.insert key value = before ++ (key, value) :: after := by
  induction entries with
  | nil => exact ⟨[], none, [], rfl, rfl⟩
  | cons x rest ih =>
      obtain ⟨k, v⟩ := x
      rw [insert]
      split
      next => exact ⟨[], none, (k, v) :: rest, rfl, rfl⟩
      next heq =>
        obtain rfl := Atom.eq_of_compare heq
        exact ⟨[], some v, rest, rfl, rfl⟩
      next =>
        obtain ⟨before, old, after, hold, hnew⟩ := ih
        exact ⟨(k, v) :: before, old, after, congrArg _ hold, congrArg _ hnew⟩

/-- At most one entry is taken away, and it has the key. -/
theorem erase_eq (entries : Entries α) (key : Atom) : ∃ before old after,
    entries = before ++ (Option.map (key, ·) old).toList ++ after ∧
      entries.erase key = before ++ after := by
  induction entries with
  | nil => exact ⟨[], none, [], rfl, rfl⟩
  | cons x rest ih =>
      obtain ⟨k, v⟩ := x
      rw [erase]
      split
      next => exact ⟨[], none, (k, v) :: rest, rfl, rfl⟩
      next heq =>
        obtain rfl := Atom.eq_of_compare heq
        exact ⟨[], some v, rest, rfl, rfl⟩
      next =>
        obtain ⟨before, old, after, hold, hnew⟩ := ih
        exact ⟨(k, v) :: before, old, after, congrArg _ hold, congrArg _ hnew⟩

end Entries

theorem Content.changedAt_insert (entries : Entries Entry) (a : Atom) (e : Entry) :
    ChangedAt (.entry a) (.table entries) (.table (entries.insert a e)) := by
  obtain ⟨before, old, after, hold, hnew⟩ := entries.insert_eq a e
  have hplace : ChangedAt (.entry a) (.table (before ++ (old.map (a, ·)).toList ++ after))
      (.table (before ++ ((some e).map (a, ·)).toList ++ after)) := .entry
  rw [hnew, hold]
  simpa using hplace

theorem Content.changedAt_erase (entries : Entries Entry) (a : Atom) :
    ChangedAt (.entry a) (.table entries) (.table (entries.erase a)) := by
  obtain ⟨before, old, after, hold, hnew⟩ := entries.erase_eq a
  have hplace : ChangedAt (.entry a) (.table (before ++ (old.map (a, ·)).toList ++ after))
      (.table (before ++ (Option.map (a, ·) none).toList ++ after)) := .entry
  rw [hnew, hold]
  simpa using hplace

namespace Heap

variable {h h' : Heap} {τ : HostType} {c : Content} {r s v key : Ref} {a : Atom}
  {value yield : Option Ref} {place : Place} {old : Nat}

/-- Of the values below the bound, the second heap has another thing, or nothing, at the place of
one value only. -/
structure ChangedAt (old : Nat) (h h' : Heap) (r : Ref) (place : Place) : Prop where
  others : ∀ s < old, s ≠ r → h'.cell s = h.cell s
  typeOf_eq : h'.typeOf r = h.typeOf r
  content : (h.contentOf r).ChangedAt place (h'.contentOf r)

/-- What left the value and those below the bound as they were may come before. -/
theorem ChangedAt.after {g : Heap} (hchanged : ChangedAt old g h' r place)
    (hframe : ∀ s < old, g.cell s = h.cell s) (hr : g.cell r = h.cell r) :
    ChangedAt old h h' r place where
  others s hs hne := (hchanged.others s hs hne).trans (hframe s hs)
  typeOf_eq := hchanged.typeOf_eq.trans (congrArg Cell.type hr)
  content := by
    have hcontent := hchanged.content
    rwa [contentOf, hr] at hcontent

/-- A value whose content is no scalar is there. -/
theorem lt_of_contentOf_ne (hr : ∀ a, h.contentOf r ≠ .atom a) : r < h.cells.size := by
  refine Nat.lt_of_not_le fun hle => hr (.bool false) ?_
  rw [contentOf, cell_of_size_le hle]
  rfl

theorem lt_of_field {i : Nat} {f : Field HostType} (hf : (h.typeOf r).fields[i]? = some f) :
    r < h.cells.size := by
  refine Nat.lt_of_not_le fun hle => ?_
  rw [typeOf, cell_of_size_le hle] at hf
  cases hf

theorem changedAt_update (hc : (h.contentOf r).ChangedAt place c) :
    ChangedAt old h (h.update r c) r place where
  others s _ hs := by simp [cell_update, hs]
  typeOf_eq := typeOf_update
  content := by
    have hr : r < h.cells.size := lt_of_contentOf_ne fun a ha => by
      rw [ha] at hc
      cases hc
    rwa [contentOf_update_self hr]

/-- A new value leaves all others as they are. -/
theorem cell_new (hnew : h.new τ c = .ok (r, h')) (hs : s < h.cells.size) :
    h'.cell s = h.cell s := by
  obtain ⟨-, -, rfl⟩ := new_eq_ok hnew
  simp [cell_alloc, Nat.ne_of_lt hs]

theorem changedAt_setField {offset : Nat} (hset : h.setField r offset value = .ok h') :
    ChangedAt old h h' r (.slot offset) := by
  obtain ⟨_, _, _, slots, _, _, hcontent, _, _, _, rfl⟩ := setField_eq_ok hset
  exact changedAt_update (hcontent ▸ .slot)

theorem changedAt_tableAssign (hassign : h.tableAssign r key yield = .ok h') :
    ∃ a, h.contentOf key = .atom a ∧ ChangedAt old h h' r (.entry a) := by
  obtain ⟨_, _, entries, a, _, hcontent, hatom, _, rfl⟩ := tableAssign_eq_ok hassign
  exact ⟨a, (keyAtom_eq_ok.mp hatom).2,
    changedAt_update (hcontent ▸ Content.changedAt_insert entries a _)⟩

theorem changedAt_tableErase {present : Bool} (herase : h.tableErase r a = .ok (present, h')) :
    ChangedAt old h h' r (.entry a) := by
  obtain ⟨_, _, entries, _, hcontent, _, rfl⟩ := tableErase_eq_ok herase
  exact changedAt_update (hcontent ▸ Content.changedAt_erase entries a)

theorem changedAt_vectorPush (hpush : h.vectorPush r v = .ok h') :
    ChangedAt old h h' r .tail := by
  obtain ⟨_, items, _, hcontent, _, rfl⟩ := vectorPush_eq_ok hpush
  exact changedAt_update (hcontent ▸ .tail)

/-! ### What is stored -/

theorem refersTo_update (hc : (h.update r c).contentOf s |>.RefersTo v) :
    (h.contentOf s).RefersTo v ∨ s = r ∧ c.RefersTo v := by
  by_cases hs : s = r ∧ r < h.cells.size
  · obtain ⟨rfl, hr⟩ := hs
    rw [contentOf_update_self hr] at hc
    exact .inr ⟨rfl, hc⟩
  · rw [contentOf, cell_update, if_neg hs] at hc
    exact .inl hc

theorem refersTo_new (hblank : c.Blank) (hnew : h.new τ c = .ok (r, h'))
    (hc : (h'.contentOf s).RefersTo v) : (h.contentOf s).RefersTo v := by
  obtain ⟨-, -, rfl⟩ := new_eq_ok hnew
  rw [contentOf, cell_alloc] at hc
  split at hc
  next => exact absurd hc hblank.not_refersTo
  next => exact hc

theorem refersTo_setField {offset : Nat} (hset : h.setField r offset value = .ok h')
    (hc : (h'.contentOf s).RefersTo v) : (h.contentOf s).RefersTo v ∨ value = some v := by
  obtain ⟨_, _, _, slots, _, _, hcontent, _, _, _, rfl⟩ := setField_eq_ok hset
  rcases refersTo_update hc with hold | ⟨rfl, hnew⟩
  · exact .inl hold
  · rw [hcontent]
    exact (List.mem_or_eq_of_mem_set hnew).imp_right Eq.symm

theorem refersTo_tableAssign (hassign : h.tableAssign r key yield = .ok h')
    (hc : (h'.contentOf s).RefersTo v) :
    (h.contentOf s).RefersTo v ∨ key = v ∨ yield = some v := by
  obtain ⟨_, _, entries, a, _, hcontent, _, _, rfl⟩ := tableAssign_eq_ok hassign
  rcases refersTo_update hc with hold | ⟨rfl, b, e, he, hv⟩
  · exact .inl hold
  · rcases Entries.mem_insert he with hnew | hold
    · cases hnew
      exact .inr hv
    · rw [hcontent]
      exact .inl ⟨b, e, hold, hv⟩

theorem refersTo_tableErase {present : Bool} (herase : h.tableErase r a = .ok (present, h'))
    (hc : (h'.contentOf s).RefersTo v) : (h.contentOf s).RefersTo v := by
  obtain ⟨_, _, entries, _, hcontent, _, rfl⟩ := tableErase_eq_ok herase
  rcases refersTo_update hc with hold | ⟨rfl, b, e, he, hv⟩
  · exact hold
  · rw [hcontent]
    exact ⟨b, e, Entries.mem_erase he, hv⟩

theorem refersTo_vectorPush (hpush : h.vectorPush r key = .ok h')
    (hc : (h'.contentOf s).RefersTo v) : (h.contentOf s).RefersTo v ∨ key = v := by
  obtain ⟨_, items, _, hcontent, _, rfl⟩ := vectorPush_eq_ok hpush
  rcases refersTo_update hc with hold | ⟨rfl, hnew⟩
  · exact .inl hold
  · rw [hcontent]
    rcases List.mem_append.mp hnew with hold | hlast
    · exact .inl hold
    · exact .inr (Option.some.inj (List.mem_singleton.mp hlast)).symm

end Heap

end HostView
