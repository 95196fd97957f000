import HostView.Host.Heap
import HostView.Proofs.Host.SameType

/-! # Well-typed heaps

A heap is well typed if the content of every value fits its type: the slots of a record hold values
of the declared types, an entry stands under the atom of its own key and has a yield exactly if the
table has, the items of a vector are of the element type, and an enumeration has a variant at the
index. Types are compared by structure. What a heap grows into keeps every type and every scalar,
so whatever fitted still fits; a vector only gets longer, and a required field that is set stays set.
-/

namespace HostView.Heap

variable {g h h' : Heap} {τ σ : HostType} {c : Content} {r s : Ref}

/-! ### Reading after a change -/

theorem cell_of_size_le (hr : h.cells.size ≤ r) : h.cell r = default := by
  simp [cell, Array.getElem?_eq_none hr]

@[simp]
theorem size_alloc (x : Cell) : (h.alloc x).2.cells.size = h.cells.size + 1 := by
  simp [alloc]

@[simp]
theorem size_update : (h.update r c).cells.size = h.cells.size := by
  simp [update]

theorem cell_alloc (x : Cell) :
    (h.alloc x).2.cell r = if r = h.cells.size then x else h.cell r := by
  simp only [alloc, cell, Array.getElem?_push]
  split <;> rfl

theorem cell_update :
    (h.update r c).cell s =
      if s = r ∧ r < h.cells.size then { h.cell r with content := c } else h.cell s := by
  simp only [update, cell, Array.getElem?_modify]
  by_cases hs : r = s
  · subst hs
    by_cases hr : r < h.cells.size
    · simp [hr]
    · simp [hr]
  · simp [hs, Ne.symm hs]

@[simp]
theorem typeOf_update : (h.update r c).typeOf s = h.typeOf s := by
  simp only [typeOf, cell_update]
  split
  next hs => rw [hs.1]
  next => rfl

theorem contentOf_update_self (hr : r < h.cells.size) : (h.update r c).contentOf r = c := by
  simp [contentOf, cell_update, hr]

theorem contentOf_update_of_ne (hs : s ≠ r) : (h.update r c).contentOf s = h.contentOf s := by
  simp [contentOf, cell_update, hs]

theorem cell_eq (h : Heap) (r : Ref) : h.cell r = ⟨h.typeOf r, h.contentOf r⟩ := rfl

/-! ### Growth -/

/-- What the content of a value of the type may become. -/
inductive Grows (τ : HostType) : Content → Content → Prop where
  | atom {a : Atom} : Grows τ (.atom a) (.atom a)
  | real {kind : RealKind} {x : Binary64} : Grows τ (.real kind x) (.real kind x)
  | record {slots slots' : List (Option Ref)}
      (hset : ∀ (i : Nat) (f : Field HostType), τ.fields[i]? = some f →
        f.attributes.isOptional = false →
        ∀ v, slots[i]? = some (some v) → ∃ v', slots'[i]? = some (some v')) :
      Grows τ (.record slots) (.record slots')
  | table {entries entries' : Entries Entry} : Grows τ (.table entries) (.table entries')
  | vector {items more : List (Option Ref)} : Grows τ (.vector items) (.vector (items ++ more))

theorem Grows.refl (τ : HostType) (c : Content) : Grows τ c c := by
  cases c with
  | atom => exact .atom
  | real => exact .real
  | record => exact .record fun _ _ _ _ v hv => ⟨v, hv⟩
  | table => exact .table
  | vector items =>
      have hgrows : Grows τ (.vector items) (.vector (items ++ [])) := .vector
      rwa [List.append_nil] at hgrows

theorem Grows.trans {c c' c'' : Content} (h : Grows τ c c') (h' : Grows τ c' c'') :
    Grows τ c c'' := by
  cases h with
  | atom => exact h'
  | real => exact h'
  | record hset =>
      cases h' with
      | record hset' =>
          refine .record fun i f hf hrequired v hv => ?_
          obtain ⟨v', hv'⟩ := hset i f hf hrequired v hv
          exact hset' i f hf hrequired v' hv'
  | table =>
      cases h' with
      | table => exact .table
  | vector =>
      cases h' with
      | vector =>
          rw [List.append_assoc]
          exact .vector

/-- A heap into which another one may grow: no value is lost or changes its type, and contents only
grow. -/
structure Extends (h h' : Heap) : Prop where
  size_le : h.cells.size ≤ h'.cells.size
  typeOf_eq : ∀ r < h.cells.size, h'.typeOf r = h.typeOf r
  grows : ∀ r < h.cells.size, Grows (h.typeOf r) (h.contentOf r) (h'.contentOf r)

theorem Extends.refl (h : Heap) : h.Extends h :=
  ⟨Nat.le_refl _, fun _ _ => rfl, fun _ _ => .refl _ _⟩

theorem Extends.trans (hgh : g.Extends h) (hh : h.Extends h') : g.Extends h' where
  size_le := Nat.le_trans hgh.size_le hh.size_le
  typeOf_eq r hr := by
    rw [hh.typeOf_eq r (Nat.lt_of_lt_of_le hr hgh.size_le), hgh.typeOf_eq r hr]
  grows r hr := (hgh.grows r hr).trans
    (hgh.typeOf_eq r hr ▸ hh.grows r (Nat.lt_of_lt_of_le hr hgh.size_le))

/-- A scalar stays what it is. -/
theorem Extends.atom_eq (hh : h.Extends h') (hr : r < h.cells.size) {a : Atom}
    (ha : h.contentOf r = .atom a) : h'.contentOf r = .atom a := by
  have hgrows := hh.grows r hr
  generalize h'.contentOf r = c at hgrows
  rw [ha] at hgrows
  cases hgrows
  rfl

theorem extends_alloc (h : Heap) (x : Cell) : h.Extends (h.alloc x).2 where
  size_le := by simp
  typeOf_eq r hr := by simp [typeOf, cell_alloc, Nat.ne_of_lt hr]
  grows r hr := by simpa [contentOf, cell_alloc, Nat.ne_of_lt hr] using .refl _ _

theorem extends_update (hc : Grows (h.typeOf r) (h.contentOf r) c) : h.Extends (h.update r c) where
  size_le := by simp
  typeOf_eq s _ := typeOf_update
  grows s hs := by
    by_cases hsr : s = r
    · subst hsr
      rwa [contentOf_update_self hs]
    · rw [contentOf_update_of_ne hsr]
      exact .refl _ _

/-! ### Typing -/

/-- The reference leads to a value of the type. -/
structure Holds (h : Heap) (τ : HostType) (r : Ref) : Prop where
  lt : r < h.cells.size
  same : (h.typeOf r).same τ = true

/-- There is a yield exactly if there is a type for it, and it is of that type. -/
def YieldFits (h : Heap) : Option HostType → Option Ref → Prop
  | none, none => True
  | some τ, some v => h.Holds τ v
  | _, _ => False

/-- An entry fits a table at an atom: the atom is that of its key. -/
structure EntryFits (h : Heap) (key : AtomType) (yield : Option HostType) (a : Atom) (e : Entry) :
    Prop where
  key : h.Holds (.atom key) e.key
  atom : h.contentOf e.key = .atom a
  yield : h.YieldFits yield e.yield

/-- A content is one of a value of the type. -/
inductive Fits (h : Heap) : HostType → Content → Prop where
  | atom {α : AtomType} {a : Atom} (hadmits : α.admits a = true) : Fits h (.atom α) (.atom a)
  | real {kind : RealKind} {x : Binary64} : Fits h (.real kind) (.real kind x)
  | record {descriptor : Nat} {name : String} {fields : List (Field HostType)}
      {slots : List (Option Ref)} (hlength : slots.length = fields.length)
      (hslots : ∀ (i : Nat) (f : Field HostType) (v : Ref), fields[i]? = some f →
        slots[i]? = some (some v) → h.Holds f.type v) :
      Fits h (.record descriptor name fields) (.record slots)
  | table {key : AtomType} {yield : Option HostType} {entries : Entries Entry}
      (hentries : ∀ a e, (a, e) ∈ entries → h.EntryFits key yield a e) :
      Fits h (.table key yield) (.table entries)
  | vector {element : HostType} {items : List (Option Ref)}
      (hitems : ∀ v, some v ∈ items → h.Holds element v) :
      Fits h (.vector element) (.vector items)

/-- Every value is of its type. -/
def WellTyped (h : Heap) : Prop :=
  ∀ r < h.cells.size, h.Fits (h.typeOf r) (h.contentOf r)

theorem Holds.extend (hr : h.Holds τ r) (hh : h.Extends h') : h'.Holds τ r :=
  ⟨Nat.lt_of_lt_of_le hr.lt hh.size_le, hh.typeOf_eq r hr.lt ▸ hr.same⟩

theorem YieldFits.eq_none {v : Option Ref} (hv : h.YieldFits none v) : v = none := by
  cases v with
  | none => rfl
  | some v => exact hv.elim

theorem YieldFits.eq_some {v : Option Ref} (hv : h.YieldFits (some τ) v) :
    ∃ r, v = some r ∧ h.Holds τ r := by
  cases v with
  | none => exact hv.elim
  | some r => exact ⟨r, rfl, hv⟩

theorem YieldFits.lt {yield : Option HostType} {v : Option Ref} (hv : h.YieldFits yield v) :
    ∀ r, v = some r → r < h.cells.size := by
  rintro r rfl
  cases yield with
  | none => exact hv.elim
  | some τ => exact Holds.lt hv

theorem YieldFits.extend {yield : Option HostType} {v : Option Ref} (hv : h.YieldFits yield v)
    (hh : h.Extends h') : h'.YieldFits yield v := by
  cases yield <;> cases v <;> simp only [YieldFits] at hv ⊢
  exact hv.extend hh

theorem EntryFits.extend {key : AtomType} {yield : Option HostType} {a : Atom} {e : Entry}
    (he : h.EntryFits key yield a e) (hh : h.Extends h') : h'.EntryFits key yield a e :=
  ⟨he.key.extend hh, hh.atom_eq he.key.lt he.atom, he.yield.extend hh⟩

/-- What is in slots that fit is of the type of one of the fields. -/
theorem exists_field_holds {fields : List (Field HostType)} {slots : List (Option Ref)}
    (hlength : slots.length = fields.length)
    (hslots : ∀ (i : Nat) (f : Field HostType) (v : Ref), fields[i]? = some f →
      slots[i]? = some (some v) → h.Holds f.type v) {v : Ref} (hv : some v ∈ slots) :
    ∃ f ∈ fields, h.Holds f.type v := by
  obtain ⟨i, hi, hat⟩ := List.mem_iff_getElem.mp hv
  have hf := List.getElem?_eq_getElem (hlength ▸ hi : i < fields.length)
  have hslot := List.getElem?_eq_some_iff.mpr ⟨hi, hat⟩
  exact ⟨_, List.mem_of_getElem? hf, hslots i _ v hf hslot⟩

theorem EntryFits.holds_yield {key : AtomType} {yield : Option HostType} {a : Atom} {e : Entry}
    (he : h.EntryFits key yield a e) {v : Ref} (hv : e.yield = some v) :
    ∃ τ, yield = some τ ∧ h.Holds τ v := by
  have hyield := he.yield
  rw [hv] at hyield
  cases yield with
  | none => exact hyield.elim
  | some τ => exact ⟨τ, rfl, hyield⟩

/-- What fits a type goes on to fit it while the heap grows. -/
theorem Fits.extend (hc : h.Fits τ c) (hh : h.Extends h') : h'.Fits τ c := by
  cases hc with
  | atom hadmits => exact .atom hadmits
  | real => exact .real
  | record hlength hslots =>
      exact .record hlength fun i f v hf hv => (hslots i f v hf hv).extend hh
  | table hentries => exact .table fun a e he => (hentries a e he).extend hh
  | vector hitems => exact .vector fun v hv => (hitems v hv).extend hh

theorem wellTyped_empty : empty.WellTyped :=
  fun r hr => absurd hr (by simp [empty])

/-- What is read at any reference fits its type, even at one that leads nowhere. -/
theorem WellTyped.fits (hh : h.WellTyped) (r : Ref) : h.Fits (h.typeOf r) (h.contentOf r) := by
  by_cases hr : r < h.cells.size
  · exact hh r hr
  · rw [typeOf, contentOf, cell_of_size_le (Nat.le_of_not_lt hr)]
    exact .atom rfl

/-- A new value keeps the heap well typed if its content fits. -/
theorem WellTyped.alloc (hh : h.WellTyped) (hc : h.Fits τ c) :
    (h.alloc ⟨τ, c⟩).2.WellTyped := by
  intro r hr
  have hnew := hc.extend (extends_alloc h ⟨τ, c⟩)
  have hold := (hh.fits r).extend (extends_alloc h ⟨τ, c⟩)
  rw [typeOf, contentOf, cell_alloc]
  split
  next => exact hnew
  next => exact hold

/-- A changed value keeps the heap well typed if its new content fits. -/
theorem WellTyped.update (hh : h.WellTyped) (hgrows : h.Extends (h.update r c))
    (hc : h.Fits (h.typeOf r) c) : (h.update r c).WellTyped := by
  intro s hs
  rw [typeOf_update]
  by_cases hsr : s = r
  · subst hsr
    rw [contentOf_update_self (by simpa using hs)]
    exact hc.extend hgrows
  · rw [contentOf_update_of_ne hsr]
    exact (hh.fits s).extend hgrows

end HostView.Heap
