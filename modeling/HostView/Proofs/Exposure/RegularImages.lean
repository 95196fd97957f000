import HostView.Proofs.Exposure.Assembling
import HostView.Proofs.Host.Images
import HostView.Proofs.Host.Twins

/-! # Regular images

An image is bounded if arrays can be as long as its vectors and sets. Then its snapshot can be
assembled, whatever its fields and the keys of its tables are named. An image is regular if, besides,
its records are declared as records are meant to be: no two fields have one name, and none is named
like the property that sets the prototype.
-/

namespace HostView

/-- An image in which nothing is longer than an array can be. -/
inductive Image.Bounded : Image → Prop where
  | atom {τ : AtomType} {a : Atom} : Bounded (.atom τ a)
  | real {kind : RealKind} {x : Binary64} : Bounded (.real kind x)
  | record {τ : HostType} {parts : List (Part Image)}
      (hparts : ∀ p ∈ parts, ∀ i, p.content = some i → Bounded i) : Bounded (.record τ parts)
  | set {key : AtomType} {entries : List (Atom × Option Image)}
      (hlength : entries.length ≤ 2 ^ 32 - 1) : Bounded (.table key none entries)
  | table {key : AtomType} {yield : HostType} {entries : List (Atom × Option Image)}
      (hyields : ∀ e ∈ entries, ∀ i, e.2 = some i → Bounded i) :
      Bounded (.table key (some yield) entries)
  | vector {element : HostType} {items : List (Option Image)} (hlength : items.length ≤ 2 ^ 32 - 1)
      (hitems : ∀ item ∈ items, ∀ i, item = some i → Bounded i) : Bounded (.vector element items)

/-- An image in which names tell the fields of records apart, and nothing is longer than an array can
be. -/
inductive Image.Regular : Image → Prop where
  | atom {τ : AtomType} {a : Atom} : Regular (.atom τ a)
  | real {kind : RealKind} {x : Binary64} : Regular (.real kind x)
  | record {τ : HostType} {parts : List (Part Image)} (hdistinct : (parts.map (·.name)).Nodup)
      (hnames : ∀ p ∈ parts, p.name ≠ "__proto__")
      (hparts : ∀ p ∈ parts, ∀ i, p.content = some i → Regular i) : Regular (.record τ parts)
  | set {key : AtomType} {entries : List (Atom × Option Image)}
      (hlength : entries.length ≤ 2 ^ 32 - 1) : Regular (.table key none entries)
  | table {key : AtomType} {yield : HostType} {entries : List (Atom × Option Image)}
      (hyields : ∀ e ∈ entries, ∀ i, e.2 = some i → Regular i) :
      Regular (.table key (some yield) entries)
  | vector {element : HostType} {items : List (Option Image)} (hlength : items.length ≤ 2 ^ 32 - 1)
      (hitems : ∀ item ∈ items, ∀ i, item = some i → Regular i) : Regular (.vector element items)

theorem Image.Regular.bounded {i : Image} (h : i.Regular) : i.Bounded := by
  induction h with
  | atom => exact .atom
  | real => exact .real
  | record _ _ _ ih => exact .record ih
  | set hlength => exact .set hlength
  | table _ ih => exact .table ih
  | vector hlength _ ih => exact .vector hlength ih

namespace Plain

theorem ofAtom_ne_null (τ : AtomType) (a : Atom) : ofAtom τ a ≠ .null := by
  have hint (i : Int) : ofInt i ≠ .null := by
    unfold ofInt
    split <;> nofun
  cases a with
  | int i => exact hint _
  | count c => exact hint _
  | _ => exact nofun

/-- The snapshot of an atom can be assembled without a prototype. -/
theorem assemblable_ofAtom (inherits : Prop) (τ : AtomType) (a : Atom) :
    (ofAtom τ a).Assemblable inherits := by
  have hint (i : Int) : (ofInt i).Assemblable inherits := by
    unfold ofInt
    split <;> exact .scalar rfl
  cases a with
  | int i => exact hint _
  | count c => exact hint _
  | port p =>
      refine .object (fun member hmember hname => ?_) fun member hmember => ?_
      · rcases List.mem_pair.mp hmember with rfl | rfl <;> exact absurd hname (by simp)
      · rcases List.mem_pair.mp hmember with rfl | rfl <;> exact .scalar rfl
  | bool | string | addr | subnet | enum => exact .scalar rfl

end Plain

namespace Image

variable {mask : Mask}

/-! ### Parts of snapshots -/

/-- The parts of a record are named like its fields. -/
theorem names_parts (read : Ref → Image) {fields : List (Field HostType)}
    {slots : List (Option Ref)} (hlength : slots.length = fields.length) :
    (((fields.zip slots).map fun (f, slot) =>
      (⟨f.name, f.attributes, slot.map read⟩ : Part Image)).map (·.name)) = fields.map (·.name) := by
  have hfields : (fields.zip slots).map Prod.fst = fields :=
    List.map_fst_zip (Nat.le_of_eq hlength.symm)
  conv_rhs => rw [← hfields]
  rw [List.map_map, List.map_map]
  rfl

/-- What is shown of a record are some of its fields, in their order. -/
theorem names_snapshotParts (mask : Mask) (parts : List (Part Image)) :
    ((snapshotParts mask parts).map (·.1)).Sublist (parts.map (·.name)) := by
  induction parts with
  | nil => exact .slnil
  | cons p parts ih =>
      obtain ⟨name, attributes, content⟩ := p
      cases content with
      | none => exact .cons _ ih
      | some i =>
          rw [snapshotParts]
          split
          next => exact .cons_cons _ ih
          next => exact .cons _ ih

theorem names_snapshotEntries (mask : Mask) (key : AtomType)
    (entries : List (Atom × Option Image)) :
    ((snapshotEntries mask key entries).map (·.1)).Sublist
      (entries.map fun e => e.1.render key) := by
  induction entries with
  | nil => exact .slnil
  | cons e entries ih =>
      obtain ⟨a, yield⟩ := e
      cases yield with
      | none => exact .cons _ ih
      | some i => exact .cons_cons _ ih

theorem mem_snapshotParts {parts : List (Part Image)} {member : String × Plain} :
    member ∈ snapshotParts mask parts ↔ ∃ p ∈ parts, mask.exposes p.attributes = true ∧
      ∃ i, p.content = some i ∧ member = (p.name, i.snapshot mask) := by
  simp only [snapshotParts_eq, List.mem_filterMap, Option.ite_none_right_eq_some,
    Option.map_eq_some_iff, eq_comm (a := member)]

theorem mem_snapshotEntries {key : AtomType} {entries : List (Atom × Option Image)}
    {member : String × Plain} : member ∈ snapshotEntries mask key entries ↔
      ∃ e ∈ entries, ∃ i, e.2 = some i ∧ member = (e.1.render key, i.snapshot mask) := by
  simp only [snapshotEntries_eq, List.mem_filterMap, Option.map_eq_some_iff,
    eq_comm (a := member)]

/-! ### Snapshots that can be assembled -/

namespace Bounded

variable {i : Image}

theorem snapshot_ne_null (h : i.Bounded) (mask : Mask) : i.snapshot mask ≠ .null := by
  cases h with
  | atom => exact Plain.ofAtom_ne_null _ _
  | real | record | set | table | vector => exact nofun

/-- The snapshot of a bounded image can be assembled, with prototypes where a field or key is named
like that. -/
theorem assemblable (h : i.Bounded) (mask : Mask) : (i.snapshot mask).Assemblable True := by
  induction h with
  | atom => exact Plain.assemblable_ofAtom _ _ _
  | real => exact .scalar rfl
  | record hparts ih =>
      refine .object (fun member hmember _ => ⟨trivial, ?_⟩) fun member hmember => ?_
      all_goals obtain ⟨p, hp, -, i, hi, rfl⟩ := mem_snapshotParts.mp hmember
      · exact (hparts p hp i hi).snapshot_ne_null mask
      · exact ih p hp i hi
  | set hlength =>
      refine .array (by simpa using hlength) fun p hp => ?_
      obtain ⟨e, -, rfl⟩ := List.mem_map.mp hp
      exact Plain.assemblable_ofAtom _ _ _
  | table hyields ih =>
      refine .object (fun member hmember _ => ⟨trivial, ?_⟩) fun member hmember => ?_
      all_goals obtain ⟨e, he, i, hi, rfl⟩ := mem_snapshotEntries.mp hmember
      · exact (hyields e he i hi).snapshot_ne_null mask
      · exact ih e he i hi
  | vector hlength _ ih =>
      rw [snapshot, snapshotItems_eq]
      refine .array (by simpa using hlength) fun p hp => ?_
      obtain ⟨item, hitem, rfl⟩ := List.mem_map.mp hp
      cases item with
      | none => exact .scalar rfl
      | some i => exact ih _ hitem i rfl

end Bounded

end Image

/-! ### Regular values -/

namespace Heap

variable {h : Heap} {r s : Ref} {n : Nat}

/-- No vector of a regular value is longer than an array can be. -/
theorem WellTyped.short_of_regular (hh : h.WellTyped) (hdepth : (h.typeOf r).depth ≤ n)
    (hregular : (Image.read h n r).Regular) : h.Short (2 ^ 32 - 1) r := by
  revert hregular
  refine hh.depth_induction
    (motive := fun n r => (Image.read h n r).Regular → h.Short (2 ^ 32 - 1) r) ?_ hdepth
  intro n r _ hpart hregular
  by_cases hvector : ∃ slots, h.contentOf r = .vector slots
  · obtain ⟨slots, hcontent⟩ := hvector
    have hfits := hh.fits r
    rw [Image.read, h.cell_eq] at hregular
    rw [hcontent] at hfits hregular hpart
    generalize h.typeOf r = type at hfits hregular
    cases hfits with
    | vector =>
        cases hregular with
        | vector hlength hregular =>
            refine .vector hcontent (by simpa using hlength) fun s hs => ?_
            exact hpart s hs (hregular _ (List.mem_map_of_mem hs) _ rfl)
  · exact .other fun slots hslots => hvector ⟨slots, hslots⟩

/-- What is in a regular value is regular. -/
theorem WellTyped.regular_slot (hh : h.WellTyped) (hregular : (Image.of h r).Regular)
    (hs : some s ∈ (h.contentOf r).slots) : (Image.of h s).Regular := by
  obtain ⟨n, hn⟩ : ∃ n, (h.typeOf r).depth = n + 1 :=
    Nat.exists_eq_succ_of_ne_zero (Nat.ne_of_gt (HostType.depth_pos _))
  have hlt := hh.depth_lt hs
  rw [hh.image_eq (r := s) (n := n) (by omega)]
  rw [hh.image_eq (n := n + 1) (Nat.le_of_eq hn), Image.read, h.cell_eq] at hregular
  have hfits := hh.fits r
  generalize h.typeOf r = type, h.contentOf r = content at hfits hregular hs
  cases hfits with
  | atom | real => cases hs
  | @record d name fields slots hlength _ =>
      cases hregular with
      | record _ _ hparts =>
          obtain ⟨i, hi⟩ := List.mem_iff_getElem?.mp hs
          obtain ⟨hlt', -⟩ := List.getElem?_eq_some_iff.mp hi
          obtain ⟨f, hf⟩ : ∃ f, fields[i]? = some f :=
            ⟨_, List.getElem?_eq_getElem (hlength ▸ hlt')⟩
          have hmem : (f, some s) ∈ fields.zip slots :=
            List.mem_iff_getElem?.mpr ⟨i, List.getElem?_zip_eq_some.mpr ⟨hf, hi⟩⟩
          exact hparts _ (List.mem_map_of_mem hmem) _ rfl
  | table hentries =>
      obtain ⟨e, hmem, heq⟩ := List.mem_map.mp hs
      cases hregular with
      | set =>
          obtain ⟨a, entry⟩ := e
          have hyield := (hentries a entry hmem).yield
          rw [heq] at hyield
          exact hyield.elim
      | table hyields => exact hyields _ (List.mem_map_of_mem hmem) _ (congrArg (Option.map _) heq)
  | vector =>
      cases hregular with
      | vector _ hitems => exact hitems _ (List.mem_map_of_mem hs) _ rfl

/-- The fields of a record that is a regular value have different names. -/
theorem WellTyped.regular_names (hh : h.WellTyped) (hregular : (Image.of h r).Regular) {d : Nat}
    {record : String} {fields : List (Field HostType)} {slots : List (Option Ref)}
    (hcell : h.cell r = ⟨.record d record fields, .record slots⟩) :
    (fields.map (·.name)).Nodup := by
  obtain ⟨n, hn⟩ : ∃ n, (h.typeOf r).depth = n + 1 :=
    Nat.exists_eq_succ_of_ne_zero (Nat.ne_of_gt (HostType.depth_pos _))
  have hfits := hh.fits r
  rw [Heap.typeOf, Heap.contentOf, hcell] at hfits
  rw [hh.image_eq (n := n + 1) (Nat.le_of_eq hn), Image.read, hcell] at hregular
  cases hfits with
  | record hlength _ =>
      cases hregular with
      | record hdistinct _ _ => rwa [Image.names_parts _ hlength] at hdistinct

end Heap

/-- The snapshot of a bounded value is built of new objects. -/
theorem Script.snapshotValue_assembles {m : Machine} {r : Ref} {call : Caller} {limit : Nat}
    (hpermits : m.Permits call True limit) (hlimit : limit ≤ m.objects.size)
    (hbounded : (Image.of m.heap r).Bounded) (mask : Mask) :
    ∃ v e, Succeeds call m (snapshotValue r mask) v ⟨e, m.toBridge⟩ ∧
      m.toEngine.Keeps (fun _ => True) e ∧
      e.Carries m.objects.size v ((Image.of m.heap r).snapshot mask) := by
  have hassembles : Assembles call m ((Image.of m.heap r).snapshot mask) :=
    build_assembles (hbounded.assemblable mask) hpermits hlimit
  obtain ⟨v, e, hbuild, hkeeps, hv⟩ := hassembles
  exact ⟨v, e, .get_bind (.routine hbuild), hkeeps, hv⟩

theorem Script.snapshotValue_carries {m : Machine} {r : Ref} {call : Caller}
    (hpermits : m.Permits call True m.objects.size) (hregular : (Image.of m.heap r).Regular)
    (mask : Mask) :
    ∃ v e, Succeeds call m (snapshotValue r mask) v ⟨e, m.toBridge⟩ ∧
      e.Carries m.objects.size v ((Image.of m.heap r).snapshot mask) := by
  obtain ⟨v, e, hbuild, -, hv⟩ :=
    snapshotValue_assembles hpermits (Nat.le_refl _) hregular.bounded mask
  exact ⟨v, e, hbuild, hv⟩

end HostView
