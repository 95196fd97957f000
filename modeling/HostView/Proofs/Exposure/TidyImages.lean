import HostView.Proofs.Exposure.Naming
import HostView.Proofs.Exposure.PlainData
import HostView.Proofs.Exposure.RegularImages
import HostView.Proofs.Host.Tables

/-! # Tidy images

An image is tidy if the names in it tell its parts apart: no record has two fields of one name, every
key of a table is denoted by its text, and nothing is named like the property that sets the
prototype. Then its snapshot is data that can be built.
-/

namespace HostView

/-- An image in which names tell parts apart, and nothing is longer than an array can be. -/
inductive Image.Tidy : Image → Prop where
  | atom {τ : AtomType} {a : Atom} : Tidy (.atom τ a)
  | real {kind : RealKind} {x : Binary64} : Tidy (.real kind x)
  | record {τ : HostType} {parts : List (Part Image)} (hdistinct : (parts.map (·.name)).Nodup)
      (hnames : ∀ p ∈ parts, p.name ≠ "__proto__")
      (hparts : ∀ p ∈ parts, ∀ i, p.content = some i → Tidy i) : Tidy (.record τ parts)
  | set {key : AtomType} {entries : List (Atom × Option Image)} (hdistinct : key.Distinct)
      (hlength : entries.length ≤ 2 ^ 32 - 1) : Tidy (.table key none entries)
  | table {key : AtomType} {yield : HostType} {entries : List (Atom × Option Image)}
      (hdistinct : key.Distinct) (hnames : ∀ e ∈ entries, e.1.render key ≠ "__proto__")
      (hmade : ∀ e ∈ entries, ∀ s, e.1 = .subnet s → s.Made)
      (hyields : ∀ e ∈ entries, ∀ i, e.2 = some i → Tidy i) :
      Tidy (.table key (some yield) entries)
  | vector {element : HostType} {items : List (Option Image)} (hlength : items.length ≤ 2 ^ 32 - 1)
      (hitems : ∀ item ∈ items, ∀ i, item = some i → Tidy i) : Tidy (.vector element items)

/-- A tidy image is regular. -/
theorem Image.Tidy.regular {i : Image} (h : i.Tidy) : i.Regular := by
  induction h with
  | atom => exact .atom
  | real => exact .real
  | record hdistinct hnames _ ih => exact .record hdistinct hnames ih
  | set _ hlength => exact .set hlength
  | table _ _ _ _ ih => exact .table ih
  | vector hlength _ ih => exact .vector hlength ih

namespace Image

variable {mask : Mask}

/-! ### Snapshots as data -/

theorem datum_record {τ : HostType} {fields : List (Field HostType)} {slots : List (Option Ref)}
    (read : Ref → Image) :
    ((Image.record τ ((fields.zip slots).map fun (f, slot) =>
        ⟨f.name, f.attributes, slot.map read⟩)).snapshot mask).datum =
      .object ((fields.zip slots).filterMap fun (f, slot) =>
        if mask.exposes f.attributes then
          slot.map fun v => (f.name, ((read v).snapshot mask).datum)
        else none) := by
  simp only [Image.snapshot, Plain.datum, Plain.memberData_eq, Image.snapshotParts_eq,
    List.filterMap_map, List.map_filterMap]
  congr 2
  funext x
  obtain ⟨f, slot⟩ := x
  cases slot <;> simp only [Function.comp_apply, Option.map_none, Option.map_some] <;> split <;> rfl

theorem datum_table {key : AtomType} {yieldType : HostType} {entries : Entries Entry}
    (read : Ref → Image) :
    ((Image.table key (some yieldType)
        (entries.map fun (a, e) => (a, e.yield.map read))).snapshot mask).datum =
      .object (entries.filterMap fun (a, e) =>
        e.yield.map fun v => (a.render key, ((read v).snapshot mask).datum)) := by
  simp only [Image.snapshot, Plain.datum, Plain.memberData_eq, Image.snapshotEntries_eq,
    List.filterMap_map, List.map_filterMap, Function.comp_def, Option.map_map]

theorem datum_set {key : AtomType} {entries : Entries Entry} (read : Ref → Image) :
    ((Image.table key none
        (entries.map fun (a, e) => (a, e.yield.map read))).snapshot mask).datum =
      .array (entries.map fun x => (Plain.ofAtom key x.1).datum) := by
  simp only [Image.snapshot, Plain.datum, Plain.itemData_eq, List.map_map, Function.comp_def]

theorem datum_vector {element : HostType} {slots : List (Option Ref)} (read : Ref → Image) :
    ((Image.vector element (slots.map fun slot => slot.map read)).snapshot mask).datum =
      .array (slots.map fun slot =>
        (slot.map fun v => ((read v).snapshot mask).datum).getD (.value .null)) := by
  simp only [Image.snapshot, Plain.datum, Plain.itemData_eq, Image.snapshotItems_eq, List.map_map]
  congr 2
  funext slot
  cases slot <;> rfl

/-- A snapshot of parts that have different names can be built if theirs can. -/
theorem buildable_parts {parts : List (Part Image)} (hdistinct : (parts.map (·.name)).Nodup)
    (hnames : ∀ p ∈ parts, p.name ≠ "__proto__")
    (hparts : ∀ p ∈ parts, ∀ i, p.content = some i → (i.snapshot mask).Buildable) :
    (Plain.object (snapshotParts mask parts)).Buildable := by
  refine .object (hdistinct.sublist (names_snapshotParts mask parts)) ?_ ?_
  · intro member hmember
    obtain ⟨p, hp, -, i, hi, rfl⟩ := mem_snapshotParts.mp hmember
    exact hnames p hp
  · intro member hmember
    obtain ⟨p, hp, -, i, hi, rfl⟩ := mem_snapshotParts.mp hmember
    exact hparts p hp i hi

theorem buildable_entries {key : AtomType} {entries : List (Atom × Option Image)}
    (hdistinct : (entries.map fun e => e.1.render key).Nodup)
    (hnames : ∀ e ∈ entries, e.1.render key ≠ "__proto__")
    (hyields : ∀ e ∈ entries, ∀ i, e.2 = some i → (i.snapshot mask).Buildable) :
    (Plain.object (snapshotEntries mask key entries)).Buildable := by
  refine .object (hdistinct.sublist (names_snapshotEntries mask key entries)) ?_ ?_
  · intro member hmember
    obtain ⟨e, he, i, hi, rfl⟩ := mem_snapshotEntries.mp hmember
    exact hnames e he
  · intro member hmember
    obtain ⟨e, he, i, hi, rfl⟩ := mem_snapshotEntries.mp hmember
    exact hyields e he i hi

end Image

/-- The snapshot of an atom can be built. -/
theorem Plain.buildable_ofAtom (τ : AtomType) (a : Atom) : (Plain.ofAtom τ a).Buildable := by
  have hint (i : Int) : (Plain.ofInt i).Buildable := by
    unfold Plain.ofInt
    split
    next => exact .int
    next => exact .text
  cases a with
  | bool => exact .bool
  | int i => exact hint _
  | count c => exact hint _
  | port p =>
      refine .object (by simp) ?_ ?_
      · simp
      · intro member hmember
        rcases List.mem_pair.mp hmember with rfl | rfl
        · exact .int
        · exact .text
  | string | addr | subnet | enum => exact .text

/-- Names tell the parts of a value of the type apart: the fields of a record, or the entries of a
table. -/
inductive HostType.NamesApart : HostType → Prop
  | record {d : Nat} {name : String} {fields : List (Field HostType)}
      (hdistinct : (fields.map (·.name)).Nodup) : NamesApart (.record d name fields)
  | table {key : AtomType} {yield : HostType} (hdistinct : key.Distinct) :
      NamesApart (.table key (some yield))

theorem HostType.NamesApart.key {key : AtomType} {yield : Option HostType}
    (h : NamesApart (.table key yield)) : key.Distinct := by
  cases h with
  | table hdistinct => exact hdistinct

namespace Heap

variable {h : Heap} {r : Ref} {n : Nat} {mask : Mask}

/-- Different entries of a table have different texts. -/
theorem WellTyped.names_nodup {key : AtomType} {yield : Option HostType} {entries : Entries Entry}
    (hh : h.WellTyped) (hordered : h.Ordered) (hcell : h.cell r = ⟨.table key yield, .table entries⟩)
    (hdistinct : key.Distinct) : (entries.map fun e => e.1.render key).Nodup := by
  have hsorted := hordered r entries (congrArg Cell.content hcell)
  have hadmits : ∀ e ∈ entries, key.admits e.1 = true := fun e he =>
    hh.admits_key (congrArg Cell.type hcell) (congrArg Cell.content hcell) he
  apply List.pairwise_map.mpr
  apply hsorted.imp_of_mem
  -- equal texts would come from equal keys, and keys increase
  intro x y hx hy hlt heq
  exact Atom.ne_of_compare hlt (Atom.render_injective (hadmits x hx) (hadmits y hy) hdistinct heq)

/-- The snapshot of a tidy value can be built. -/
theorem WellTyped.buildable_snapshot (hh : h.WellTyped) (hordered : h.Ordered)
    (hdepth : (h.typeOf r).depth ≤ n) (htidy : (Image.read h n r).Tidy) :
    ((Image.read h n r).snapshot mask).Buildable := by
  revert htidy
  refine hh.depth_induction (motive := fun n r => (Image.read h n r).Tidy →
    ((Image.read h n r).snapshot mask).Buildable) ?_ hdepth
  intro n r _ hpart htidy
  have hfits := hh.fits r
  have hcell := h.cell_eq r
  rw [Image.read, hcell] at htidy ⊢
  generalize h.typeOf r = type, h.contentOf r = content at hfits htidy hcell hpart ⊢
  cases hfits with
  | atom => exact Plain.buildable_ofAtom _ _
  | real => exact .real
  | record =>
      cases htidy with
      | record hdistinct hnames hparts =>
          refine Image.buildable_parts hdistinct hnames fun p hp i hi => ?_
          have htidy := hparts p hp i hi
          obtain ⟨⟨f, slot⟩, hmem, rfl⟩ := List.mem_map.mp hp
          obtain ⟨v, rfl, rfl⟩ := Option.map_eq_some_iff.mp hi
          exact hpart v (List.of_mem_zip hmem).2 htidy
  | @table key yield entries =>
      cases htidy with
      | set hdistinct hlength =>
          refine .array (by simpa using hlength) fun p hp => ?_
          obtain ⟨e, -, rfl⟩ := List.mem_map.mp hp
          exact Plain.buildable_ofAtom _ _
      | table hdistinct hnames hmade hyields =>
          have hnodup := hh.names_nodup hordered hcell hdistinct
          refine Image.buildable_entries (by rwa [List.map_map]) hnames fun e he i hi => ?_
          have htidy := hyields e he i hi
          obtain ⟨entry, hmem, rfl⟩ := List.mem_map.mp he
          obtain ⟨v, hv, rfl⟩ := Option.map_eq_some_iff.mp hi
          exact hpart v (List.mem_map.mpr ⟨entry, hmem, hv⟩) htidy
  | vector =>
      cases htidy with
      | vector hlength htidy =>
          refine .array ?_ fun p hp => ?_
          · rw [Image.snapshotItems_eq, List.length_map]
            exact hlength
          · rw [Image.snapshotItems_eq] at hp
            obtain ⟨item, hitem, rfl⟩ := List.mem_map.mp hp
            cases hi : item with
            | none => exact .null
            | some i =>
                have htidy := htidy item hitem i hi
                obtain ⟨slot, hmem, rfl⟩ := List.mem_map.mp hitem
                obtain ⟨v, rfl, rfl⟩ := Option.map_eq_some_iff.mp hi
                exact hpart v hmem htidy

/-- No vector of a tidy value is longer than an array can be. -/
theorem WellTyped.short_of_tidy (hh : h.WellTyped) (hdepth : (h.typeOf r).depth ≤ n)
    (htidy : (Image.read h n r).Tidy) : h.Short (2 ^ 32 - 1) r :=
  hh.short_of_regular hdepth htidy.regular

end Heap

/-- The snapshot of a tidy value is built of new objects. -/
theorem Script.snapshotValue_gives {m : Machine} {r : Ref} (hh : m.heap.WellTyped)
    (hordered : m.heap.Ordered) (hclear : m.Clear m.objects.size)
    (htidy : (Image.of m.heap r).Tidy) (call : Caller) (mask : Mask) :
    ∃ v e, Succeeds call m (snapshotValue r mask) v ⟨e, m.toBridge⟩ ∧
      m.toEngine.Keeps (fun _ => True) e ∧
      e.Denotes m.objects.size v ((Image.of m.heap r).snapshot mask).datum := by
  have himage := hh.image_eq (Nat.le_refl (m.heap.typeOf r).depth)
  rw [himage] at htidy ⊢
  have hbuilds : Builds call m ((Image.read m.heap (m.heap.typeOf r).depth r).snapshot mask) :=
    build_gives (hh.buildable_snapshot hordered (Nat.le_refl _) htidy) hclear (Nat.le_refl _)
  obtain ⟨v, e, hbuild, hkeeps, hv⟩ := hbuilds
  refine ⟨v, e, ?_, hkeeps, hv⟩
  unfold snapshotValue
  apply Succeeds.get_bind
  rw [himage]
  exact .routine hbuild

end HostView
