import HostView.Proofs.Host.Order

/-! # What tables hold

A table holds a yield, or membership, at finitely many atoms. Storing an entry puts one in and taking
an entry out drops one; nothing else changes what is held. Size, membership, lookup and enumeration
report what is held, and nothing but that.
-/

namespace HostView

/-- What is held at each atom that is present: a yield, or none of its own by a member of a set. -/
abbrev Holding := Atom → Option (Option Ref)

/-- A change of what is held, at one atom. -/
inductive Change where
  | put (a : Atom) (yield : Option Ref)
  | drop (a : Atom)

/-- What is held after the change. -/
def Change.apply (held : Holding) : Change → Holding
  | put a yield => fun b => if b = a then some yield else held b
  | drop a => fun b => if b = a then none else held b

namespace Heap

variable {h h' : Heap} {r key : Ref} {a b : Atom} {yield : Option Ref} {entries : Entries Entry}
  {keyType : AtomType} {yieldType : Option HostType}

/-- What a table holds. -/
def holding (h : Heap) (r : Ref) : Holding := fun a => (h.entryAt? r a).map (·.yield)

theorem entryAt?_eq (hcontent : h.contentOf r = .table entries) (a : Atom) :
    h.entryAt? r a = entries.find? a := by
  rw [entryAt?, hcontent]

theorem holding_congr (hcell : h'.cell r = h.cell r) : h'.holding r = h.holding r := by
  funext a
  simp only [holding, entryAt?, contentOf, hcell]

/-- Storing an entry puts its yield in at its atom. -/
theorem holding_insert (hh : h.Ordered) (hcontent : h.contentOf r = .table entries)
    (hr : r < h.cells.size) (a : Atom) (e : Entry) :
    (h.update r (.table (entries.insert a e))).holding r =
      (Change.put a e.yield).apply (h.holding r) := by
  funext b
  have hsorted := hh r entries hcontent
  simp only [holding, entryAt?_eq (contentOf_update_self hr), entryAt?_eq hcontent,
    hsorted.find?_insert, Change.apply]
  split <;> simp

theorem lt_of_table (hcontent : h.contentOf r = .table entries) : r < h.cells.size :=
  lt_of_contentOf_ne fun a ha => by simp [hcontent] at ha

/-- A table of a well-typed heap has entries. -/
theorem WellTyped.table_entries (hh : h.WellTyped) (htype : h.typeOf r = .table keyType yieldType) :
    ∃ entries, h.contentOf r = .table entries := by
  have hfits := hh.fits r
  rw [htype] at hfits
  generalize h.contentOf r = content at hfits ⊢
  cases hfits with
  | table => exact ⟨_, rfl⟩

/-- The keys of a table are of the type of its keys. -/
theorem WellTyped.admits_key {e : Entry} (hh : h.WellTyped)
    (htype : h.typeOf r = .table keyType yieldType) (hcontent : h.contentOf r = .table entries)
    (hmem : (a, e) ∈ entries) : keyType.admits a = true := by
  have hfits := hh.fits r
  rw [htype, hcontent] at hfits
  cases hfits with
  | table hentries =>
      have hentry := hentries a e hmem
      have hkey := hh.fits e.key
      rw [HostType.eq_atom_of_same hentry.key.same, hentry.atom] at hkey
      cases hkey with
      | atom hadmits => exact hadmits

/-! ### What the host is told -/

theorem tableAssign_eq (htype : h.typeOf r = .table keyType yieldType)
    (hcontent : h.contentOf r = .table entries) (hatom : h.keyAtom keyType key = .ok a)
    (hyield : h.checkYield yieldType yield = .ok ()) :
    h.tableAssign r key yield = .ok (h.update r (.table (entries.insert a ⟨key, yield⟩))) := by
  have hparts := tableParts_eq_ok.mpr ⟨htype, hcontent⟩
  simp [tableAssign, hparts, hatom, hyield, bind, Except.bind]

theorem tableErase_eq (htype : h.typeOf r = .table keyType yieldType)
    (hcontent : h.contentOf r = .table entries) (a : Atom) :
    h.tableErase r a =
      .ok ((entries.find? a).isSome, h.update r (.table (entries.erase a))) := by
  have hparts := tableParts_eq_ok.mpr ⟨htype, hcontent⟩
  simp [tableErase, hparts, bind, Except.bind]

theorem YieldFits.checkYield (hyield : h.YieldFits yieldType yield) :
    h.checkYield yieldType yield = .ok () := by
  cases yieldType <;> cases yield <;> simp only [YieldFits] at hyield
  · rfl
  · exact if_pos hyield.same

/-- A key of the type is an atom. -/
theorem WellTyped.keyAtom (hh : h.WellTyped) (hkey : h.Holds (.atom keyType) key) :
    ∃ a, h.keyAtom keyType key = .ok a := by
  have hfits := hh.fits key
  rw [HostType.eq_atom_of_same hkey.same] at hfits
  generalize hcontent : h.contentOf key = content at hfits
  cases hfits with
  | atom => exact ⟨_, keyAtom_eq_ok.mpr ⟨hkey.same, hcontent⟩⟩

/-- What is of the types of a table can be stored in it. -/
theorem WellTyped.tableAssign_succeeds (hh : h.WellTyped) (htype : h.typeOf r = .table keyType yieldType)
    (hkey : h.Holds (.atom keyType) key) (hyield : h.YieldFits yieldType yield) :
    ∃ h', h.tableAssign r key yield = .ok h' := by
  obtain ⟨entries, hcontent⟩ := hh.table_entries htype
  obtain ⟨a, hatom⟩ := hh.keyAtom hkey
  exact ⟨_, tableAssign_eq htype hcontent hatom hyield.checkYield⟩

/-- The heap in which an entry has been stored under a new value of its key. -/
def stored (h : Heap) (r : Ref) (keyType : AtomType) (entries : Entries Entry) (a : Atom)
    (yield : Option Ref) : Heap :=
  (h.alloc ⟨.atom keyType, .atom a⟩).2.update r (.table (entries.insert a ⟨h.cells.size, yield⟩))

/-- A new value of the key is made and the entry is put under it. -/
theorem assign_stored (htype : h.typeOf r = .table keyType yieldType)
    (hcontent : h.contentOf r = .table entries) (hadmits : keyType.admits a = true)
    (hyield : h.YieldFits yieldType yield) :
    (do let (k, g) ← h.new (.atom keyType) (.atom a); g.tableAssign r k yield) =
      .ok (h.stored r keyType entries a yield) := by
  have hnew : h.new (.atom keyType) (.atom a) = .ok (h.alloc ⟨.atom keyType, .atom a⟩) :=
    new_eq (checkContent_atom hadmits)
  have hcell : (h.alloc ⟨.atom keyType, .atom a⟩).2.cell r = h.cell r := by
    rw [cell_alloc, if_neg (Nat.ne_of_lt (lt_of_table hcontent))]
  have htype' : (h.alloc ⟨.atom keyType, .atom a⟩).2.typeOf r = .table keyType yieldType := by
    rw [typeOf, hcell]
    exact htype
  have hcontent' : (h.alloc ⟨.atom keyType, .atom a⟩).2.contentOf r = .table entries := by
    rw [contentOf, hcell]
    exact hcontent
  have hatom := keyAtom_eq_ok.mpr ⟨(holds_new hnew).same, contentOf_new hnew⟩
  rw [hnew]
  exact tableAssign_eq htype' hcontent' hatom (hyield.extend (extends_alloc h _)).checkYield

theorem holding_stored (hh : h.Ordered) (hcontent : h.contentOf r = .table entries) (a : Atom)
    (yield : Option Ref) :
    (h.stored r keyType entries a yield).holding r = (Change.put a yield).apply (h.holding r) := by
  have hr := lt_of_table hcontent
  have hcell : (h.alloc ⟨.atom keyType, .atom a⟩).2.cell r = h.cell r := by
    rw [cell_alloc, if_neg (Nat.ne_of_lt hr)]
  have hcontent' : (h.alloc ⟨.atom keyType, .atom a⟩).2.contentOf r = .table entries := by
    rw [contentOf, hcell]
    exact hcontent
  have hordered' : (h.alloc ⟨.atom keyType, .atom a⟩).2.Ordered := by
    intro s es hs
    rw [contentOf, cell_alloc] at hs
    split at hs
    next => cases hs
    next => exact hh s es hs
  rw [stored, holding_insert hordered' hcontent' (by simpa using Nat.lt_succ_of_lt hr),
    holding_congr hcell]

end Heap

end HostView
