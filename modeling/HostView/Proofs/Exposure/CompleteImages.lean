import HostView.Proofs.Exposure.Rebuilding
import HostView.Proofs.Exposure.TidyImages

/-! # Complete images

An image is complete if its snapshot has all that there is to know of it: nothing that must be set is
unset, every integer outside keys is exact as a double, and names tell parts apart and are not taken
for properties that every object inherits. From its snapshot the value is rebuilt.
-/

namespace HostView

theorem Mask.exposes_all (a : Attributes) : all.exposes a = true := by
  simp [exposes, all]

/-- An image of which the snapshot tells everything, where the fields of records have free names. -/
inductive Image.Complete (free : String → Prop) : Image → Prop where
  | atom {τ : AtomType} {a : Atom} (hdistinct : τ.Distinct) (hsmall : a.Small)
      (hmade : ∀ s, a = .subnet s → s.Made) : Complete free (.atom τ a)
  | real {kind : RealKind} {x : Binary64} : Complete free (.real kind x)
  | record {τ : HostType} {parts : List (Part Image)} (hdistinct : (parts.map (·.name)).Nodup)
      (hfree : ∀ p ∈ parts, free p.name)
      (hset : ∀ p ∈ parts, p.content = none → p.attributes.isOptional = true)
      (hparts : ∀ p ∈ parts, ∀ i, p.content = some i → Complete free i) :
      Complete free (.record τ parts)
  | set {key : AtomType} {entries : List (Atom × Option Image)} (hdistinct : key.Distinct)
      (hmade : ∀ e ∈ entries, ∀ s, e.1 = .subnet s → s.Made) (hlength : entries.length < 2 ^ 31) :
      Complete free (.table key none entries)
  | table {key : AtomType} {yield : HostType} {entries : List (Atom × Option Image)}
      (hdistinct : key.Distinct) (hnames : ∀ e ∈ entries, e.1.render key ≠ "__proto__")
      (hmade : ∀ e ∈ entries, ∀ s, e.1 = .subnet s → s.Made)
      (hyields : ∀ e ∈ entries, ∀ i, e.2 = some i → Complete free i) :
      Complete free (.table key (some yield) entries)
  | vector {element : HostType} {items : List (Option Image)} (hset : none ∉ items)
      (hlength : items.length < 2 ^ 31) (hitems : ∀ i, some i ∈ items → Complete free i) :
      Complete free (.vector element items)

namespace Image.Complete

variable {free : String → Prop} {i : Image}

theorem mono {free' : String → Prop} (h : i.Complete free) (hfree : ∀ name, free name → free' name) :
    i.Complete free' := by
  induction h with
  | atom hdistinct hsmall hmade => exact .atom hdistinct hsmall hmade
  | real => exact .real
  | record hdistinct hnames hset _ ih =>
      exact .record hdistinct (fun p hp => hfree _ (hnames p hp)) hset ih
  | set hdistinct hmade hlength => exact .set hdistinct hmade hlength
  | table hdistinct hnames hmade _ ih => exact .table hdistinct hnames hmade ih
  | vector hset hlength _ ih => exact .vector hset hlength ih

theorem tidy (h : i.Complete free) (hfree : ∀ name, free name → name ≠ "__proto__") : i.Tidy := by
  induction h with
  | atom => exact .atom
  | real => exact .real
  | record hdistinct hnames _ _ ih => exact .record hdistinct (fun p hp => hfree _ (hnames p hp)) ih
  | set hdistinct _ hlength => exact .set hdistinct (by omega)
  | table hdistinct hnames hmade _ ih => exact .table hdistinct hnames hmade ih
  | vector _ hlength _ ih =>
      refine .vector (by omega) fun item hitem i hi => ?_
      subst hi
      exact ih i hitem

theorem snapshot_ne_null (h : i.Complete free) (mask : Mask) : i.snapshot mask ≠ .null := by
  cases h with
  | atom => exact Plain.ofAtom_ne_null _ _
  | real | record | set | table | vector => exact nofun

end Image.Complete

namespace Script

variable {call : Caller} {m : Machine} {g h : Heap} {low limit o : ObjectId} {r : Ref} {v : Value}
  {n : Nat}

/-- No object inherits a property of the name from the prototype of plain objects, and the name does not
set the prototype. -/
structure Engine.Free (e : Engine) (limit : Nat) (name : String) : Prop where
  ordinary : name ≠ "__proto__"
  absent : e.Passes limit (.name name) (· = none) limit (some Intrinsic.object)

/-- If the image is complete, then whatever stands for its snapshot is converted to a copy of the
value. -/
def ImageRebuilds (call : Caller) (m : Machine) (h : Heap) (low limit : Nat) (i : Image) (r : Ref) :
    Prop :=
  i.Complete (m.Free limit) → ∀ v, m.toEngine.Denotes low v (i.snapshot .all).datum →
    Rebuilds call m h v r

theorem Engine.Free.keeps {e e' : Engine} {name : String} (h : e.Free limit name)
    (hkeeps : e.Keeps (· < limit) e') (hlimit : limit ≤ e.objects.size) : e'.Free limit name :=
  ⟨h.ordinary, h.absent.keeps hkeeps hlimit⟩

theorem atom_rebuilds {τ : AtomType} {a : Atom} (huntagged : m.toEngine.Untagged limit)
    (hcell : h.cell r = ⟨.atom τ, .atom a⟩) (hadmits : τ.admits a = true) (hdistinct : τ.Distinct)
    (hsmall : a.Small) (hmade : ∀ s, a = .subnet s → s.Made)
    (hv : m.toEngine.Denotes low v (Plain.ofAtom τ a).datum) : Rebuilds call m h v r := by
  intro type g htype
  rw [Heap.typeOf_eq hcell] at htype
  obtain rfl := HostType.eq_atom_of_same (HostType.same_symm htype)
  have hgives : Gives call { m with heap := g } (atomOf τ v) a { m with heap := g } :=
    atomOf_denoted hadmits hdistinct hsmall hmade hv
  have hunheld : Unheld call { m with heap := g } v :=
    Engine.Denotes.unheld (m := { m with heap := g }) hv huntagged
  refine ⟨g.cells.size, (g.alloc ⟨.atom τ, .atom a⟩).2, ?_, Heap.adds_alloc g _, ?_⟩
  · rw [toHost]
    exact heldOr_unheld hunheld
      (.bind (.routine hgives) (new_gives (Heap.checkContent_atom hadmits)))
  · exact .atom hcell (Nat.le_refl _) (by simp) (Heap.cell_alloc_self _)

theorem real_rebuilds {kind : RealKind} {x : Binary64}
    (hcell : h.cell r = ⟨.real kind, .real kind x⟩) : Rebuilds call m h (.ofReal x) r := by
  intro type g htype
  obtain ⟨y, hnumber, halike⟩ := number?_ofReal x
  obtain rfl : type = .real kind := by
    rw [Heap.typeOf_eq hcell] at htype
    cases type <;> simp_all [HostType.same]
  refine ⟨g.cells.size, (g.alloc ⟨.real kind, .real kind y⟩).2, ?_, Heap.adds_alloc g _, ?_⟩
  · rw [toHost, hnumber]
    exact heldOr_unheld (unheld_of_object? (object?_ofReal x)) (new_gives (if_pos rfl))
  · exact .real hcell (Nat.le_refl _) (by simp) (Heap.cell_alloc_self _) halike

/-- A vector is built of the items of an array. -/
theorem vector_rebuilds {element : HostType} {slots : List (Option Ref)} {items : List Value}
    (huntagged : m.toEngine.Untagged limit) (hcell : h.cell r = ⟨.vector element, .vector slots⟩)
    (hset : none ∉ slots) (hobject : m.object o = .arrayWith items) (hlength : items.length < 2 ^ 31)
    (hsize : items.length = slots.length) (hsettled : ∀ v ∈ items, v.Settled m.toEngine)
    (hitems : ∀ (i : Nat) (v : Value) (s : Ref), items[i]? = some v → slots[i]? = some (some s) →
      (h.typeOf s).same element = true ∧ Rebuilds call m h v s) :
    Rebuilds call m h (.object o) r := by
  intro type g htype
  obtain ⟨element', rfl, hsame⟩ : ∃ element', type = .vector element' ∧
      element.same element' = true := by
    rw [Heap.typeOf_eq hcell] at htype
    cases type <;> simp_all [HostType.same]
  -- what is kept of an item: it is a copy of what the slot at its index holds
  let good (i : Nat) (s low : Ref) (g : Heap) : Prop :=
    ∃ r, slots[i]? = some (some r) ∧ h.Copies low g r s
  have hgood : ∀ i s, Heap.Lasting (good i s) := by
    rintro i s low low' g g' ⟨r, hr, hs⟩ hkeeps hlow
    exact ⟨r, hr, Heap.Copies.lasting h r s hs hkeeps hlow⟩
  obtain ⟨g', news, hconvert, hg'⟩ := vector_gives hgood element' huntagged hobject hlength hsettled
    fun i v hv g₁ _ => by
      have hi : i < slots.length := hsize ▸ (List.getElem?_eq_some_iff.mp hv).1
      obtain ⟨slot, hslot⟩ : ∃ slot, slots[i]? = some slot := ⟨_, List.getElem?_eq_getElem hi⟩
      cases slot with
      | none => exact absurd (List.mem_of_getElem? hslot) hset
      | some s =>
          obtain ⟨htype, hrebuilds⟩ := hitems i v s hv hslot
          have hitem := HostType.same_trans htype hsame
          obtain ⟨t, g₂, hconvert, hadds, ht⟩ := hrebuilds element' g₁ hitem
          exact ⟨t, g₂, hconvert, hadds, same_of_copies ht hitem, s, hslot, ht⟩
  refine ⟨g.cells.size, g', hconvert, hg'.building.adds, ?_⟩
  refine .vector hcell (Nat.le_refl _) hg'.building.lt hg'.building.cell_eq hsame ?_ ?_
  · have hslots : slots.map Option.isSome = List.replicate slots.length true := by
      refine List.eq_replicate_iff.mpr ⟨List.length_map _, fun b hb => ?_⟩
      obtain ⟨slot, hslot, rfl⟩ := List.mem_map.mp hb
      exact Option.isSome_iff_ne_none.mpr fun hnone => hset (hnone ▸ hslot)
    have hnews : (news.map some).map Option.isSome = List.replicate slots.length true := by
      simp [List.eq_replicate_iff, hg'.length_eq, hsize]
    exact hslots.trans hnews.symm
  · intro v w hmem
    obtain ⟨i, hi⟩ := List.mem_iff_getElem?.mp hmem
    obtain ⟨hslot, hnew⟩ := List.getElem?_zip_eq_some.mp hi
    rw [List.getElem?_map] at hnew
    obtain ⟨t, ht, heq⟩ := Option.map_eq_some_iff.mp hnew
    obtain ⟨r, hr, hcopy⟩ := hg'.items i t ht
    rw [hslot] at hr
    cases hr
    cases heq
    exact Heap.Copies.lasting h v w hcopy (.refl _ _) (Nat.le_succ _)

/-! ### All values -/

/-- The property that a plain object has for a part of the data is converted to a copy of the part. -/
theorem property_rebuilds {members : List (String × Value)} {name : String} {type : HostType}
    (htype : (h.typeOf r).same type = true) (hobject : m.object o = .plainWith members)
    (hlookup : members.lookup name = some v) (hpresent : v.isPresent = true)
    (hv : v.Settled m.toEngine) (hrebuilds : Rebuilds call m h v r) :
    PropertyRebuilds call m h o name type r := by
  refine ⟨htype, v, hpresent, hrebuilds, fun g => ?_⟩
  exact readMember_gives (m := { m with heap := g }) hobject hlookup hv

/-- A field that the data lacks is missing from a plain object. -/
theorem field_missing {members : List (String × Value)} {f : Field HostType}
    (huntagged : m.toEngine.Untagged limit) (hobject : m.object o = .plainWith members)
    (hlookup : members.lookup f.name = none) (hfree : m.Free limit f.name)
    (hoptional : f.attributes.isOptional = true) : FieldRebuilds call m h o f none := by
  refine ⟨hoptional, fun g => ?_⟩
  have hown : (m.object o).own? (.name f.name) = none := by
    rw [hobject, Object.own?_plainWith, hlookup]
    rfl
  have hproxy : (m.object o).isProxy = false := by
    rw [hobject]
    rfl
  have hproto : (m.object o).proto = some Intrinsic.object := by
    rw [hobject]
    rfl
  have hread : Gives call { m with heap := g } (getProperty o (.name f.name)) .undefined
      { m with heap := g } :=
    getProperty_undefined (m := { m with heap := g }) hproxy hown (hproto ▸ hfree.absent)
      huntagged.limit_le
  exact .bind (.attempt hread) .pure

section

variable {parts : List (Part Image)} {part : Part Image} {members : List (String × Value)}
  {data : List (String × Datum)} (hdistinct : (parts.map (·.name)).Nodup)
  (hdata : data = (Image.snapshotParts .all parts).map fun member => (member.1, member.2.datum))
  (hnames : members.map (·.1) = data.map (·.1)) (hpart : part ∈ parts)

include hdistinct hdata hnames hpart

/-- What a record has in a field is in the snapshot under the name of the field. -/
theorem lookup_part {i : Image} (hmembers : ∀ (i : Nat) (x : String × Value) (y : String × Datum),
      members[i]? = some x → data[i]? = some y → m.toEngine.Denotes low x.2 y.2)
    (hcontent : part.content = some i) :
    ∃ v, members.lookup part.name = some v ∧
      m.toEngine.Denotes low v (i.snapshot .all).datum := by
  have hshown : (part.name, i.snapshot .all) ∈ Image.snapshotParts .all parts :=
    Image.mem_snapshotParts.mpr ⟨part, hpart, Mask.exposes_all _, i, hcontent, rfl⟩
  have hnodup : (data.map (·.1)).Nodup := by
    rw [hdata, List.map_map]
    exact hdistinct.sublist (Image.names_snapshotParts .all parts)
  refine lookup_denotes hnames hmembers hnodup ?_
  rw [hdata]
  exact List.mem_map_of_mem (f := fun member => (member.1, member.2.datum)) hshown

/-- A field that is unset is not in the snapshot, since no other field has its name. -/
theorem lookup_unset (hcontent : part.content = none) : members.lookup part.name = none := by
  refine lookup_absent hnames fun hname => ?_
  rw [hdata, List.map_map] at hname
  obtain ⟨member, hshown, heq⟩ := List.mem_map.mp hname
  obtain ⟨other, hother, -, i, hset, rfl⟩ := Image.mem_snapshotParts.mp hshown
  obtain rfl : other = part := List.inj_on_of_nodup_map hdistinct hother hpart heq
  rw [hcontent] at hset
  cases hset

end

section

variable {read : Ref → Image} {key : AtomType} {entries : Entries Entry}

/-- A complete record is rebuilt from its snapshot, if the values in it are. -/
theorem parts_rebuild {d : Nat} {name : String} {fields : List (Field HostType)}
    {slots : List (Option Ref)} {parts : List (Part Image)}
    (huntagged : m.toEngine.Untagged limit)
    (hcell : h.cell r = ⟨.record d name fields, .record slots⟩)
    (hlength : slots.length = fields.length)
    (hslots : ∀ (i : Nat) (f : Field HostType) (s : Ref), fields[i]? = some f →
      slots[i]? = some (some s) → h.Holds f.type s)
    (hparts : ∀ f slot, (f, slot) ∈ fields.zip slots →
      ⟨f.name, f.attributes, slot.map read⟩ ∈ parts)
    (hvalue : ∀ s, some s ∈ slots → ImageRebuilds call m h low limit (read s) s) :
    ImageRebuilds call m h low limit (.record (.record d name fields) parts) r := by
  intro hcomplete v hv
  rw [Image.snapshot, Plain.datum, Plain.memberData_eq] at hv
  cases hcomplete with
  | record hdistinct hfree hset hcomplete =>
      cases hv with
      | object _ _ hobject hnames hmembers =>
          apply record_rebuilds huntagged hcell hobject
          refine List.forall₂_iff_zip.mpr ⟨hlength.symm, ?_⟩
          intro f slot hzip
          have hpart := hparts f slot hzip
          cases slot with
          | none =>
              have hlookup := lookup_unset hdistinct rfl hnames hpart rfl
              exact field_missing huntagged hobject hlookup (hfree _ hpart) (hset _ hpart rfl)
          | some s =>
              obtain ⟨w, hlookup, hw⟩ := lookup_part hdistinct rfl hnames hpart hmembers rfl
              have hs := hcomplete _ hpart (read s) rfl
              obtain ⟨i, hi⟩ := List.mem_iff_getElem?.mp hzip
              obtain ⟨hf, hslot⟩ := List.getElem?_zip_eq_some.mp hi
              exact property_rebuilds (hslots i f s hf hslot).same hobject hlookup
                (hw.present (hs.snapshot_ne_null _)) hw.settled
                (hvalue s (List.mem_of_getElem? hslot) hs w hw)

/-- A complete set is rebuilt from its snapshot. -/
theorem members_rebuild (huntagged : m.toEngine.Untagged limit)
    (hcell : h.cell r = ⟨.table key none, .table entries⟩) (hsorted : entries.Sorted)
    (hadmits : ∀ x ∈ entries, key.admits x.1 = true)
    (hyields : ∀ a e, (a, e) ∈ entries → e.yield = none)
    (hdistinct : key.Distinct) (hmade : ∀ x ∈ entries, ∀ s, x.1 = .subnet s → s.Made)
    (hlength : entries.length < 2 ^ 31)
    (hv : m.toEngine.Denotes low v (.array (entries.map fun x => (Plain.ofAtom key x.1).datum))) :
    Rebuilds call m h v r := by
  cases hv with
  | @array o items _ _ _ hobject hsize hitems =>
      have hsettled := settled_items hsize hitems
      rw [List.length_map] at hsize
      have hitem : ∀ (i : Nat) (v : Value) (a : Atom) (e : Entry), items[i]? = some v →
          entries[i]? = some (a, e) → m.toEngine.Denotes low v (Plain.ofAtom key a).datum := by
        intro i v a e hv ha
        exact hitems i v _ hv (by rw [List.getElem?_map, ha]; rfl)
      refine set_rebuilds huntagged hcell hsorted hyields hobject (hsize ▸ hlength) hsize hsettled ?_
      intro i v a e hv ha g
      have hmem := List.mem_of_getElem? ha
      exact memberToHost_denoted (m := { m with heap := g })
        huntagged (hadmits _ hmem) hdistinct (hmade _ hmem)
        (hitem i v a e hv ha)

/-- A complete table is rebuilt from its snapshot, if the values in it are. -/
theorem entries_rebuild {yield : HostType} (huntagged : m.toEngine.Untagged limit)
    (hcell : h.cell r = ⟨.table key (some yield), .table entries⟩) (hsorted : entries.Sorted)
    (hadmits : ∀ x ∈ entries, key.admits x.1 = true)
    (hyields : ∀ a e, (a, e) ∈ entries → ∃ s, e.yield = some s ∧ (h.typeOf s).same yield = true)
    (hnodup : (entries.map fun x => x.1.render key).Nodup)
    (hdistinct : key.Distinct) (hmade : ∀ x ∈ entries, ∀ s, x.1 = .subnet s → s.Made)
    (hcomplete : ∀ a e s, (a, e) ∈ entries → e.yield = some s → (read s).Complete (m.Free limit))
    (hvalue : ∀ s, some s ∈ entries.map (·.2.yield) → ImageRebuilds call m h low limit (read s) s)
    (hv : m.toEngine.Denotes low v (.object (entries.filterMap fun x =>
      x.2.yield.map fun s => (x.1.render key, ((read s).snapshot .all).datum)))) :
    Rebuilds call m h v r := by
  -- no name is missing, since every entry has a yield
  have hkeys : (entries.filterMap fun x => x.2.yield.map fun s =>
      (x.1.render key, ((read s).snapshot .all).datum)).map (·.1) =
        entries.map fun x => x.1.render key := by
    rw [List.map_filterMap, ← List.filterMap_eq_map]
    refine List.filterMap_congr fun x hx => ?_
    obtain ⟨s, hs, -⟩ := hyields x.1 x.2 hx
    rw [hs]
    rfl
  cases hv with
  | @object o members _ _ _ hobject hnames hmembers =>
      refine table_rebuilds huntagged hcell hsorted hobject (hnames.trans hkeys) hnodup
        (settled_members hnames hmembers) ?_ ?_
      · intro a e hmem
        have ha := hadmits _ hmem
        exact ⟨ha, AtomType.keyOfName_render ha hdistinct (hmade _ hmem)⟩
      · intro a e hmem
        obtain ⟨s, hs, htype⟩ := hyields a e hmem
        have hdata : (a.render key, ((read s).snapshot .all).datum) ∈ entries.filterMap fun x =>
            x.2.yield.map fun s => (x.1.render key, ((read s).snapshot .all).datum) := by
          refine List.mem_filterMap.mpr ⟨(a, e), hmem, ?_⟩
          rw [hs]
          rfl
        obtain ⟨w, hlookup, hw⟩ := lookup_denotes hnames hmembers (hkeys ▸ hnodup) hdata
        have hs' := hcomplete a e s hmem hs
        refine ⟨s, hs, property_rebuilds htype hobject hlookup
          (hw.present (hs'.snapshot_ne_null _)) hw.settled ?_⟩
        exact hvalue s (List.mem_map.mpr ⟨(a, e), hmem, hs⟩) hs' w hw

end

/-- Every complete value is rebuilt from its snapshot. -/
theorem denotes_rebuilds (huntagged : m.toEngine.Untagged limit) (hh : h.WellTyped)
    (hordered : h.Ordered) (hdepth : (h.typeOf r).depth ≤ n) :
    ImageRebuilds call m h low limit (Image.read h n r) r := by
  refine hh.depth_induction
    (motive := fun n r => ImageRebuilds call m h low limit (Image.read h n r) r) ?_ hdepth
  intro n r _ hpart
  have hfits := hh.fits r
  have hcell := h.cell_eq r
  rw [Image.read, hcell]
  generalize h.typeOf r = type, h.contentOf r = content at hfits hcell hpart
  -- what is in the value is rebuilt, so what is left is the value itself
  cases hfits with
  | atom hadmits =>
      rintro (⟨hdistinct, hsmall, hmade⟩ | _) v hv
      exact atom_rebuilds huntagged hcell hadmits hdistinct hsmall hmade hv
  | real =>
      intro _ v hv
      rw [hv.eq_value]
      exact real_rebuilds hcell
  | record hlength hslots =>
      refine parts_rebuild huntagged hcell hlength hslots (fun f slot hmem => ?_) hpart
      exact List.mem_map.mpr ⟨(f, slot), hmem, rfl⟩
  | @table key yield entries hentries =>
      have hsorted := hordered r entries (congrArg Cell.content hcell)
      have hadmits : ∀ x ∈ entries, key.admits x.1 = true := fun x hx =>
        hh.admits_key (congrArg Cell.type hcell) (congrArg Cell.content hcell) hx
      intro hcomplete v hv
      cases hcomplete with
      | set hdistinct hmade hlength =>
          rw [Image.datum_set] at hv
          exact members_rebuild huntagged hcell hsorted hadmits
            (fun a e hmem => (hentries a e hmem).yield.eq_none) hdistinct
            (fun x hx => hmade _ (List.mem_map_of_mem hx)) (by simpa using hlength) hv
      | table hdistinct hnames hmade hcomplete =>
          rw [Image.datum_table] at hv
          refine entries_rebuild huntagged hcell hsorted hadmits (fun a e hmem => ?_)
            (hh.names_nodup hordered hcell hdistinct) hdistinct (fun x hx => ?_)
            (fun a e s hmem hs => ?_) hpart hv
          · obtain ⟨s, hs, hholds⟩ := (hentries a e hmem).yield.eq_some
            exact ⟨s, hs, hholds.same⟩
          · exact hmade _ (List.mem_map_of_mem hx)
          · refine hcomplete _ (List.mem_map_of_mem hmem) _ ?_
            exact congrArg (Option.map _) hs
  | @vector element slots hitems =>
      intro hcomplete v hv
      rw [Image.datum_vector] at hv
      cases hcomplete with
      | vector hset hlength hcomplete =>
          have hitem : ∀ slot ∈ slots, slot.map (Image.read h n) ∈
              slots.map fun slot => slot.map (Image.read h n) :=
            fun slot hslot => List.mem_map_of_mem hslot
          cases hv with
          | array _ _ hobject hsize hdata =>
              have hsettled := settled_items hsize hdata
              rw [List.length_map] at hsize hlength
              refine vector_rebuilds huntagged hcell (fun hnone => hset (hitem none hnone)) hobject
                (hsize ▸ hlength) hsize hsettled fun i w s hw hs => ⟨?_, ?_⟩
              · exact (hitems s (List.mem_of_getElem? hs)).same
              · have hmem := List.mem_of_getElem? hs
                refine hpart s hmem (hcomplete _ (hitem _ hmem)) w (hdata i w _ hw ?_)
                rw [List.getElem?_map, hs]
                rfl

end Script

end HostView
