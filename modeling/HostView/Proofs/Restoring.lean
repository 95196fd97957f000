import HostView.Proofs.Exposure.CompleteImages
import HostView.Proofs.Snapshots

/-! # Values restored from snapshots

A host value whose snapshot is complete is rebuilt from it, at every type of its structure. The new
value is structurally equal to the old one, except that doubles may lose the sign of zero and that
what is no number is matched by itself.
-/

namespace HostView

/-- The atom of an image, or the keys of a table. -/
def Image.atoms : Image → List Atom
  | .atom _ a => [a]
  | .table _ _ entries => entries.map (·.1)
  | _ => []

theorem Image.Alike.atoms_eq {i j : Image} (h : i.Alike j) : i.atoms = j.atoms := by
  cases h with
  | table _ hkeys => exact hkeys
  | atom | real | record | vector => rfl

namespace Script

variable {m : Machine} {r : Ref} {type element : HostType} {slots : List (Option Ref)}

/-- The snapshot of a value, converted to the type, gives a new value that is like the first one. No
value that was there changes. -/
def Restores (call : Caller) (m : Machine) (r : Ref) (type : HostType) : Prop :=
  ∃ v m' s g, Succeeds call m (snapshotValue r .all) v m' ∧
    Succeeds call m' (toHost type v) s { m' with heap := g } ∧
    m.heap.Adds g ∧ m.heap.cells.size ≤ s ∧ (Image.of m.heap r).Alike (Image.of g s)

/-- A complete value is restored from its snapshot, as long as nothing on the prototypes gets in the
way of the objects that are built and read. -/
theorem snapshot_restores (hh : m.heap.WellTyped) (hordered : m.heap.Ordered)
    (huntagged : m.Untagged m.objects.size) (hclear : m.Clear m.objects.size)
    (hcomplete : (Image.of m.heap r).Complete (m.Free m.objects.size))
    (htype : (m.heap.typeOf r).same type = true) (call : Caller) : Restores call m r type := by
  have htidy := hcomplete.tidy fun name hname => hname.ordinary
  obtain ⟨v, e, hbuilt, hkeeps, hv⟩ := snapshotValue_gives hh hordered hclear htidy call .all
  -- building adds objects and leaves the prototypes as they are
  have hbelow : m.toEngine.Keeps (· < m.objects.size) e := hkeeps.mono fun _ _ _ => trivial
  have hcomplete' := hcomplete.mono fun name hname => hname.keeps hbelow (Nat.le_refl _)
  rw [hh.image_eq (Nat.le_refl _)] at hcomplete' hv
  have hrebuilds : Rebuilds call ⟨e, m.toBridge⟩ m.heap v r :=
    denotes_rebuilds (m := ⟨e, m.toBridge⟩) (huntagged.keeps hbelow) hh hordered (Nat.le_refl _)
      hcomplete' v hv
  obtain ⟨s, g, hconvert, hadds, hs⟩ := hrebuilds type m.heap htype
  refine ⟨v, ⟨e, m.toBridge⟩, s, g, hbuilt, hconvert, hadds, hs.low_le, ?_⟩
  have hdepth := HostType.depth_eq_of_same hs.same
  exact hs.alike hh (Nat.le_add_left _ _) (hdepth ▸ Nat.le_add_left _ _)

theorem of_vector {h : Heap} (hcell : h.cell r = ⟨.vector element, .vector slots⟩) :
    Image.of h r = .vector element
      (slots.map fun slot => slot.map (Image.read h (h.cells.size + element.depth))) := by
  have hreach : h.reach r = h.cells.size + element.depth + 1 := by
    rw [Heap.reach, Heap.typeOf_eq hcell, HostType.depth, ← Nat.add_assoc]
  rw [Image.of, hreach, Image.read, hcell]

/-- A vector that is too long comes back without its items. -/
theorem snapshot_long (hh : m.heap.WellTyped) (hordered : m.heap.Ordered)
    (huntagged : m.Untagged m.objects.size) (hclear : m.Clear m.objects.size)
    (htidy : (Image.of m.heap r).Tidy) (hcell : m.heap.cell r = ⟨.vector element, .vector slots⟩)
    (hlength : 2 ^ 31 ≤ slots.length) (call : Caller) :
    ∃ v m', Succeeds call m (snapshotValue r .all) v m' ∧
      Succeeds call m' (toHost (.vector element) v) m.heap.cells.size
        { m' with heap := (m.heap.alloc ⟨.vector element, .vector []⟩).2 } := by
  obtain ⟨v, e, hbuilt, hkeeps, hv⟩ := snapshotValue_gives hh hordered hclear htidy call .all
  rw [of_vector hcell, Image.datum_vector] at hv
  cases hv with
  | array _ _ hobject hsize =>
      rw [List.length_map] at hsize
      refine ⟨_, ⟨e, m.toBridge⟩, hbuilt, ?_⟩
      exact vector_long (m := ⟨e, m.toBridge⟩) element
        (huntagged.keeps (hkeeps.mono fun _ _ _ => trivial)) hobject (hsize ▸ hlength)

/-! ### A record of tables -/

/-- A table with one entry, a set of a count that is no exact double, and a record of the two with a
field that is unset. -/
def stockHeap : Heap :=
  ⟨#[⟨.atom .string, .atom (.string "k")⟩, ⟨.atom .int, .atom (.int 1)⟩,
    ⟨.table .string (some (.atom .int)), .table [(.string "k", ⟨0, some 1⟩)]⟩,
    ⟨.atom .count, .atom (.count 9007199254740993)⟩,
    ⟨.table .count none, .table [(.count 9007199254740993, ⟨3, none⟩)]⟩,
    ⟨.record 0 "stock" [⟨"amounts", .table .string (some (.atom .int)), .log⟩,
      ⟨"numbers", .table .count none, .log⟩, ⟨"note", .atom .string, .optional⟩],
      .record [some 2, some 4, none]⟩]⟩

/-- The values of the heap before any of them has been shown, where plain objects inherit the given
properties. -/
def stockMachine (properties : List (Key × Property)) : Machine :=
  ⟨portEngine properties, .start stockHeap⟩

theorem stockHeap_wellTyped : stockHeap.WellTyped := by decide

theorem stockHeap_ordered : stockHeap.Ordered := by decide

theorem portEngine_untagged : (portEngine []).Untagged 12 :=
  ⟨portEngine_intact.untagged, Nat.le_refl _⟩

theorem amounts_complete (free : String → Prop) : (Image.read stockHeap 2 2).Complete free := by
  have hamount : (Image.read stockHeap 1 1).Complete free := .atom trivial (by decide) nofun
  refine .table trivial (fun e he => ?_) (fun e he => ?_) fun e he i hi => ?_
  all_goals cases List.mem_singleton.mp he
  · decide
  · nofun
  · cases hi
    exact hamount

theorem stockHeap_complete {free : String → Prop} (hfree : ∀ name, name ≠ "__proto__" → free name) :
    (Image.of stockHeap 5).Complete free := by
  have hnumbers : (Image.read stockHeap 2 4).Complete free := by
    refine .set trivial (fun e he => ?_) (by decide)
    cases List.mem_singleton.mp he
    nofun
  let parts : List (Part Image) := [⟨"amounts", .log, some (Image.read stockHeap 2 2)⟩,
    ⟨"numbers", .log, some (Image.read stockHeap 2 4)⟩, ⟨"note", .optional, none⟩]
  have hnames : ∀ p ∈ parts, p.name ≠ "__proto__" := by decide
  have hset : ∀ p ∈ parts, p.content = none → p.attributes.isOptional = true := by decide
  have hread : Image.read stockHeap 3 5 = .record (stockHeap.typeOf 5) parts := rfl
  rw [stockHeap_wellTyped.image_eq (r := 5) (n := 3) (by decide), hread]
  refine .record (by decide) (fun p hp => hfree _ (hnames p hp)) hset fun p hp i hi => ?_
  rcases List.mem_cons.mp hp with rfl | hp
  · cases hi
    exact amounts_complete free
  · rcases List.mem_pair.mp hp with rfl | rfl
    · cases hi
      exact hnumbers
    · cases hi

/-- The record is restored at the type of another declaration of the same structure. -/
theorem snapshot_restores_stock :
    let m := stockMachine []
    let type := HostType.record 7 "stock" [⟨"amounts", .table .string (some (.atom .int)), .log⟩,
      ⟨"numbers", .table .count none, .log⟩, ⟨"note", .atom .string, .optional⟩]
    m.heap.WellTyped ∧ m.heap.Ordered ∧ m.Untagged m.objects.size ∧ m.Clear m.objects.size ∧
      (Image.of m.heap 5).Complete (m.Free m.objects.size) ∧
      (m.heap.typeOf 5).same type = true ∧ Restores (invoke 9) m 5 type := by
  intro m type
  have hcomplete : (Image.of m.heap 5).Complete (m.Free m.objects.size) :=
    stockHeap_complete fun _ => portEngine_bare.free_name
  refine ⟨stockHeap_wellTyped, stockHeap_ordered, portEngine_untagged, portEngine_bare.clear, hcomplete,
    rfl, ?_⟩
  exact snapshot_restores stockHeap_wellTyped stockHeap_ordered portEngine_untagged portEngine_bare.clear
    hcomplete rfl (invoke 9)

/-! ### What gets in the way -/

/-- The atoms of what a value becomes whose snapshot is converted to the type. -/
def Machine.restoredAtoms (m : Machine) (n : Nat) (r : Ref) (type : HostType) :
    Option (List Atom) :=
  match m.act n (snapshotValue r .all) with
  | (.ok v, m') =>
    match m'.act n (toHost type v) with
    | (.ok s, m'') => some (Image.of m''.heap s).atoms
    | (.error _, _) => none
  | (.error _, _) => none

theorem Restores.atoms_eq {n : Nat} (h : Restores (invoke n) m r type) :
    m.restoredAtoms n r type = some (Image.of m.heap r).atoms := by
  obtain ⟨v, m', s, g, hbuilt, hconvert, -, -, halike⟩ := h
  have hbuilt' : m.act n (snapshotValue r .all) = (.ok v, m') := hbuilt
  have hconvert' : m'.act n (toHost type v) = (.ok s, { m' with heap := g }) := hconvert
  rw [Machine.restoredAtoms, hbuilt']
  dsimp only
  rw [hconvert']
  exact congrArg some halike.atoms_eq.symm

theorem longHeap_ordered : longHeap.Ordered := by
  intro r entries hr
  match r with
  | 0 | 1 => cases hr
  | n + 2 => cases hr

theorem longHeap_tidy : (Image.of longHeap 1).Tidy := by
  rw [of_vector (h := longHeap) (r := 1) rfl]
  refine .vector (by rw [List.length_map, List.length_map, List.length_replicate]; decide) ?_
  intro item hitem i hi
  obtain ⟨slot, hslot, rfl⟩ := List.mem_map.mp hitem
  obtain ⟨s, hs, rfl⟩ := List.mem_map.mp hslot
  obtain rfl := List.eq_of_mem_replicate hs
  cases hi
  exact .atom

theorem longHeap_not_restored :
    ¬ Restores (invoke 9) ⟨portEngine [], .start longHeap⟩ 1 (.vector (.atom .bool)) := by
  rintro ⟨v, m₁, s, g, hbuilt, hconvert, -, -, halike⟩
  let long : Machine := ⟨portEngine [], .start longHeap⟩
  have hlength : 2 ^ 31 ≤ ((List.replicate (2 ^ 31) 0).map (some : Ref → Option Ref)).length := by
    rw [List.length_map, List.length_replicate]
  obtain ⟨w, m₂, hbuilt', hconvert'⟩ := snapshot_long (m := long) (r := 1) longHeap_wellTyped
    longHeap_ordered portEngine_untagged portEngine_bare.clear longHeap_tidy rfl hlength (invoke 9)
  obtain ⟨rfl, rfl⟩ := hbuilt.unique hbuilt'
  obtain ⟨rfl, hmachine⟩ := hconvert.unique hconvert'
  obtain rfl : g = (longHeap.alloc ⟨.vector (.atom .bool), .vector []⟩).2 :=
    congrArg (fun m => m.heap) hmachine
  have hempty : (Image.of longHeap 1).Alike
      (Image.of (longHeap.alloc ⟨.vector (.atom .bool), .vector []⟩).2 longHeap.cells.size) := halike
  rw [of_vector (h := longHeap) (r := 1) rfl, of_vector (Heap.cell_alloc_self _)] at hempty
  cases hempty with
  | vector _ hitems =>
      have hsize := hitems.length_eq
      rw [List.length_map, List.length_map, List.length_replicate] at hsize
      exact absurd hsize (by decide)

/-- An entry is lost to a setter that plain objects inherit, a port is taken for another one if they
inherit the private symbol, and a vector may be too long. -/
theorem snapshot_not_restores :
    let losing := stockMachine [(.name "k", .accessor none (some 3) false true)]
    let mistaking := portMachine [(.symbol .tag, .plain (.object 4))]
    let long : Machine := ⟨portEngine [], .start longHeap⟩
    (losing.heap.WellTyped ∧ (∀ free, (Image.of losing.heap 2).Complete free) ∧
        ¬ Restores (invoke 9) losing 2 (.table .string (some (.atom .int)))) ∧
      (mistaking.heap.WellTyped ∧ (∀ free, (Image.of mistaking.heap 0).Complete free) ∧
        ¬ Restores (invoke 9) mistaking 0 (.atom .port)) ∧
      long.heap.WellTyped ∧ long.heap.Full (2 ^ 31) 1 ∧
        ¬ Restores (invoke 9) long 1 (.vector (.atom .bool)) := by
  intro losing mistaking long
  refine ⟨⟨stockHeap_wellTyped, fun free => ?_, fun h => ?_⟩,
    ⟨portHeap_wellTyped, fun free => ?_, fun h => ?_⟩, longHeap_wellTyped, longHeap_full,
    longHeap_not_restored⟩
  · exact stockHeap_wellTyped.image_eq (r := 2) (n := 2) (by decide) ▸ amounts_complete free
  · have hatoms := h.atoms_eq
    -- the setter takes the only member of the object that is built
    have hempty : losing.restoredAtoms 9 2 (.table .string (some (.atom .int))) = some [] := by
      decide +kernel
    have hkeys : (Image.of losing.heap 2).atoms = [.string "k"] := by decide +kernel
    rw [hempty, hkeys] at hatoms
    cases hatoms
  · exact .atom trivial trivial nofun
  · have hatoms := h.atoms_eq
    -- the object that is built is taken for the token that its prototype has at the symbol
    have hother : mistaking.restoredAtoms 9 0 (.atom .port) = some [.port ⟨53, .udp⟩] := by
      decide +kernel
    have hport : (Image.of mistaking.heap 0).atoms = [.port ⟨80, .tcp⟩] := by decide +kernel
    rw [hother, hport] at hatoms
    cases hatoms

end Script

end HostView
