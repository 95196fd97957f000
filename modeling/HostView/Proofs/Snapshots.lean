import HostView.Proofs.Exposure.NormalForm
import HostView.Proofs.RoundTrip

/-! # Snapshots and live views

The snapshot of a host value is what a script finds that reads the value itself to its end, under the
same mask. The one is made at once from the slots, the other comes from the answers of live values and
the cache of offsets. They agree as long as nothing on the prototypes gets in the way while the
snapshot is built.
-/

namespace HostView.Script

variable {m : Machine} {r : Ref}

/-- The snapshot of a value is made of new objects, and it is the data that what a script is shown for
the value comes to when it is read so many steps deep. -/
def SnapshotAgrees (call : Caller) (m : Machine) (mask : Mask) (n : Nat) (r : Ref) : Prop :=
  ∃ d : Datum,
    (∃ v m', Succeeds call m (snapshotValue r mask) v m' ∧ m'.Denotes m.objects.size v d) ∧
    ComesTo call m mask (normalForm n) r d

/-- The snapshot of a tidy value agrees with what is seen of the value, under every mask. -/
theorem snapshot_agrees (hm : m.Sound) (hordered : m.heap.Ordered) (hcoherent : m.Coherent)
    (hintact : m.Intact) (hclear : m.Clear m.objects.size) (htidy : (Image.of m.heap r).Tidy)
    (call : Caller) (mask : Mask) {n : Nat} (hdepth : (m.heap.typeOf r).depth ≤ n) :
    SnapshotAgrees call m mask n r := by
  have hh := hm.heap.left
  have hready : m.Ready m.objects.size := ⟨hintact, Nat.le_refl _, hm.integers⟩
  obtain ⟨v, e, hbuilt, -, hv⟩ := snapshotValue_gives hh hordered hclear htidy call mask
  refine ⟨((Image.of m.heap r).snapshot mask).datum, ⟨v, ⟨e, m.toBridge⟩, hbuilt, hv⟩, ?_⟩
  rw [hh.image_eq hdepth] at htidy ⊢
  have hnormalizes : Normalizes call m.heap mask n r := normalForm_gives hh hordered hdepth htidy
  exact hnormalizes.comesTo hh rfl hready hcoherent (hh.short_of_tidy hdepth htidy)

/-! ### A record of large counts -/

/-- A count that is no exact double, a vector of it with an unset item, and a record that has the
vector and a field that is unset. -/
def countHeap : Heap :=
  ⟨#[⟨.atom .count, .atom (.count 9007199254740993)⟩,
    ⟨.vector (.atom .count), .vector [some 0, none]⟩,
    ⟨.record 0 "reading" [⟨"counts", .vector (.atom .count), .log⟩, ⟨"note", .atom .string, .optional⟩],
      .record [some 1, none]⟩]⟩

/-- The values of a heap before any of them has been shown, where plain objects inherit the given
properties. -/
def countMachine (properties : List (Key × Property)) : Machine :=
  ⟨portEngine properties, .start countHeap⟩

theorem countHeap_wellTyped : countHeap.WellTyped := by decide

theorem countHeap_ordered : countHeap.Ordered := by decide

theorem countMachine_sound (properties : List (Key × Property)) :
    (countMachine properties).Sound :=
  sound_start countHeap_wellTyped

theorem countMachine_coherent (properties : List (Key × Property)) :
    (countMachine properties).Coherent := by
  have hdeclares : countHeap.Declares fun _ => ["counts", "note"] := by decide
  exact ⟨_, hdeclares, OffsetCache.coherent_empty⟩

theorem countHeap_tidy : (Image.of countHeap 2).Tidy := by
  have hvector : (Image.read countHeap 2 1).Tidy := by
    refine .vector (by decide) fun item hitem i hi => ?_
    rcases List.mem_pair.mp hitem with rfl | rfl
    · cases hi
      exact .atom
    · cases hi
  have himage := countHeap_wellTyped.image_eq (r := 2) (n := 3) (by decide)
  rw [himage]
  refine .record (by decide) (by decide) fun p hp i hi => ?_
  rcases List.mem_pair.mp hp with rfl | rfl
  · cases hi
    exact hvector
  · cases hi

/-- The record is shown as what its snapshot is, for readers of logs. -/
theorem snapshot_agrees_counts :
    let m := countMachine []
    m.Sound ∧ m.heap.Ordered ∧ m.Coherent ∧ m.Intact ∧ m.Clear m.objects.size ∧
      (Image.of m.heap 2).Tidy ∧ SnapshotAgrees (invoke 9) m .loggable 3 2 := by
  intro m
  refine ⟨countMachine_sound [], countHeap_ordered, countMachine_coherent [], portEngine_intact,
    portEngine_bare.clear, countHeap_tidy, ?_⟩
  exact snapshot_agrees (countMachine_sound []) countHeap_ordered (countMachine_coherent [])
    portEngine_intact portEngine_bare.clear countHeap_tidy (invoke 9) .loggable (by decide)

/-- The names of the members of data. -/
def memberNames : Datum → List String
  | .object members => members.map (·.1)
  | _ => []

/-- Data of the script that is an object has a property for each member. -/
theorem Engine.Denotes.names_length {e : Engine} {low o : ObjectId} {d : Datum}
    (h : e.Denotes low (.object o) d) (hproperties : (e.object o).properties = []) :
    memberNames d = [] := by
  cases h with
  | value hv => cases hv
  | array => rfl
  | object _ _ hobject hnames =>
      rw [hobject, Object.plainWith, List.map_eq_nil_iff] at hproperties
      rw [hproperties] at hnames
      exact hnames.symm

/-- The properties of the object that is returned, if one is. -/
def returnedProperties : Except Thrown Value × Machine → Option (List (Key × Property))
  | (.ok (.object o), m) => some (m.object o).properties
  | _ => none

/-- The members of the data that a returned value comes to. -/
def returnedNames (n : Nat) : Except Thrown Value × Machine → Option (List String)
  | (.ok v, m) => (m.act 9 (normalForm n v)).1.toOption.map memberNames
  | _ => none

/-- A setter that plain objects inherit keeps a field out of the snapshot, but not out of sight. -/
theorem snapshot_disagrees :
    let m := countMachine [(.name "counts", .accessor none (some 3) false true)]
    m.Sound ∧ m.heap.Ordered ∧ m.Coherent ∧ (Image.of m.heap 2).Tidy ∧
      ¬ SnapshotAgrees (invoke 9) m .all 3 2 := by
  intro m
  refine ⟨countMachine_sound _, countHeap_ordered, countMachine_coherent _, countHeap_tidy, ?_⟩
  rintro ⟨d, ⟨v, m₁, hsnapshot, hv⟩, w, m₂, m₃, hshow, hform, -⟩
  have hbuilt : m.act 9 (snapshotValue 2 .all) = (.ok v, m₁) := hsnapshot
  have hseen : m.act 9 (wrapValue .all 2) = (.ok w, m₂) := hshow
  have hread : m₂.act 9 (normalForm 3 w) = (.ok d, m₃) := hform
  -- the setter takes the only member of the object that is built
  have hempty : returnedProperties (m.act 9 (snapshotValue 2 .all)) = some [] := by decide +kernel
  -- the field is read from the record itself
  have hnames : returnedNames 3 (m.act 9 (wrapValue .all 2)) = some ["counts"] := by decide +kernel
  rw [hbuilt] at hempty
  rw [hseen, returnedNames, hread] at hnames
  cases v with
  | object o =>
      have hmembers := hv.names_length (Option.some.inj hempty)
      rw [Except.toOption, Option.map_some, hmembers] at hnames
      cases hnames
  | _ => cases hempty

end HostView.Script
