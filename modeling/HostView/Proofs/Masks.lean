import HostView.Proofs.Exposure.Walks
import HostView.Proofs.Snapshots

/-! # Larger masks only hide

A host value is seen under two masks, of which the second asks for all that the first asks for. The
second hides fields of records, at every depth, and that is all that it does: what a script can go on
to under it, from member to member and item to item, it can go on to under the first as well, and
there it has the same; the snapshot under it lacks some members of the other one.
-/

namespace HostView.Script

variable {call : Caller} {m m₁ m₂ : Machine} {h : Heap} {mask mask₁ mask₂ : Mask} {r : Ref}
  {v v₁ v₂ : Value} {low limit : Nat} {path : List Step}

/-! ### Values under two masks -/

/-- What a script has on the second machine is what it has on the first, but for fields of records
that the second mask hides: the same primitive value or copy, arrays of such items, or live values
that stand for one host value and list, in one order, the same keys or some fewer fields. -/
inductive Narrows (call : Caller) (m₁ m₂ : Machine) (mask₁ mask₂ : Mask) : Value → Value → Prop
  | primitive {v : Value} (hv : v.object? = none) : Narrows call m₁ m₂ mask₁ mask₂ v v
  | copy {o₁ o₂ : ObjectId} {members : List (String × Value)}
      (hmembers : ∀ member ∈ members, member.2.object? = none)
      (hobject₁ : m₁.object o₁ = .plainWith members) (hobject₂ : m₂.object o₂ = .plainWith members) :
      Narrows call m₁ m₂ mask₁ mask₂ (.object o₁) (.object o₂)
  | live {o₁ o₂ target₁ target₂ : ObjectId} {r : Ref} {kind : WrapKind} {names₁ names₂ : List String}
      (hlive₁ : m₁.live? o₁ = some (target₁, ⟨r, mask₁, kind⟩))
      (hlive₂ : m₂.live? o₂ = some (target₂, ⟨r, mask₂, kind⟩))
      (hkeys₁ : Succeeds call m₁ (hostKeys target₁) names₁ m₁)
      (hkeys₂ : Succeeds call m₂ (hostKeys target₂) names₂ m₂) (hnames : names₂.Sublist names₁)
      (htable : kind = .table → names₂ = names₁) :
      Narrows call m₁ m₂ mask₁ mask₂ (.object o₁) (.object o₂)
  | array {o₁ o₂ : ObjectId} {items₁ items₂ : List Value}
      (hobject₁ : m₁.object o₁ = .arrayWith items₁) (hobject₂ : m₂.object o₂ = .arrayWith items₂)
      (hlength : items₂.length = items₁.length)
      (hitems : ∀ (i : Nat) (v₁ v₂ : Value), items₁[i]? = some v₁ → items₂[i]? = some v₂ →
        Narrows call m₁ m₂ mask₁ mask₂ v₁ v₂) :
      Narrows call m₁ m₂ mask₁ mask₂ (.object o₁) (.object o₂)

/-- The names that a record lists under a larger mask are some of those under a smaller one; a table
lists the same. -/
theorem hostKeys_narrows {target₁ target₂ : ObjectId} (hheap : m₁.heap = m₂.heap)
    (hh : m₁.heap.WellTyped) (hmasks : mask₁ ≤ mask₂) (hw₁ : m₁.Wraps target₁ r mask₁)
    (hw₂ : m₂.Wraps target₂ r mask₂) (hkind : WrapKind.of (m₁.heap.typeOf r) ≠ .bare)
    (call : Caller) :
    ∃ names₁ names₂, Succeeds call m₁ (hostKeys target₁) names₁ m₁ ∧
      Succeeds call m₂ (hostKeys target₂) names₂ m₂ ∧ names₂.Sublist names₁ ∧
      (WrapKind.of (m₁.heap.typeOf r) = .table → names₂ = names₁) := by
  have hfits := hh.fits r
  have hcell := m₁.heap.cell_eq r
  generalize m₁.heap.typeOf r = type, m₁.heap.contentOf r = content at hfits hcell hkind
  cases hfits with
  | @record d record fields slots =>
      refine ⟨_, _, (hw₁.fronts hcell).hostKeys_gives call,
        (hw₂.fronts (hheap ▸ hcell)).hostKeys_gives call, ?_, nofun⟩
      exact (List.monotone_filter_right fields fun f hf => Mask.exposes_of_le hmasks hf).map _
  | @table key yield entries =>
      exact ⟨_, _, (hw₁.stands hcell).hostKeys_gives call (congrArg Cell.content hcell),
        (hw₂.stands (hheap ▸ hcell)).hostKeys_gives call (congrArg Cell.content (hheap ▸ hcell)),
        .refl _, fun _ => rfl⟩
  | atom | real | vector => exact absurd rfl hkind

/-- What stands for one host value under two masks is the same but for what the larger one hides. -/
theorem Represents.narrows (hv₁ : Represents m₁ h mask₁ low v₁ r) (hv₂ : Represents m₂ h mask₂ low v₂ r)
    (hheap₁ : m₁.heap = h) (hheap₂ : m₂.heap = h) (hh : h.WellTyped) (hmasks : mask₁ ≤ mask₂)
    (call : Caller) : Narrows call m₁ m₂ mask₁ mask₂ v₁ v₂ := by
  induction hv₁ generalizing v₂ with
  | atom hcell hvalue =>
      rcases hv₂.atom_cases hcell with hvalue' | ⟨p, o, rfl, -⟩
      · obtain rfl := Option.some.inj (hvalue.symm.trans hvalue')
        exact .primitive (object?_shownAs hvalue)
      · cases hvalue
  | port hcell _ _ hobject =>
      rcases hv₂.atom_cases hcell with hvalue' | ⟨p, o, hp, rfl, hobject'⟩
      · cases hvalue'
      · obtain rfl := Atom.port.inj hp
        refine .copy (fun member hmember => ?_) hobject hobject'
        rcases List.mem_pair.mp hmember with rfl | rfl
        · simp only [object?_ofInt]
        · rfl
  | real hcell =>
      obtain rfl := hv₂.eq_ofReal hcell
      exact .primitive (object?_ofReal _)
  | held _ _ _ hlt' hkind hobject htarget hwrap =>
      subst hheap₁
      obtain ⟨o₂, target₂, rfl, hw₂, hlive₂⟩ :=
        Represents.live (hheap₂ ▸ hv₂) (hheap₂.symm ▸ hkind)
      have hw₁ : m₁.Wraps _ _ mask₁ := ⟨hlt', _, _, htarget, hwrap⟩
      obtain ⟨names₁, names₂, hkeys₁, hkeys₂, hnames, htable⟩ :=
        hostKeys_narrows hheap₂.symm hh hmasks hw₁ hw₂ hkind call
      rw [hheap₂] at hlive₂
      exact .live (hw₁.live?_eq hobject) hlive₂ hkeys₁ hkeys₂ hnames htable
  | @vector _ _ slots _ _ hcell _ _ hobject hsize hunset _ ih =>
      obtain ⟨o₂, items₂, rfl, -, hobject₂, hsize₂, hitems₂⟩ := hv₂.array hcell
      refine .array hobject hobject₂ (hsize₂.trans hsize.symm) fun i v₁ v₂ hv₁ hv₂ => ?_
      obtain ⟨slot, hslot⟩ : ∃ slot, slots[i]? = some slot := by
        obtain ⟨hi, -⟩ := List.getElem?_eq_some_iff.mp hv₁
        exact ⟨_, List.getElem?_eq_getElem (hsize ▸ hi)⟩
      have hshown₂ := hitems₂ i v₂ slot hv₂ hslot
      cases slot with
      | none =>
          obtain rfl := hunset i v₁ hv₁ hslot
          obtain rfl : v₂ = .undefined := hshown₂
          exact .primitive rfl
      | some s => exact ih i v₁ s hv₁ hslot hshown₂

/-! ### Paths and snapshots -/

/-- What a script has at the end of a path into a host value that it is shown under a mask, if the
path leads somewhere. -/
def seenAt (mask : Mask) (r : Ref) (path : List Step) : Action (Option Value) := do
  walk path (← wrapValue mask r)

theorem seenAt_finds (hm : m.Presents h limit) (hregular : (Image.of h r).Regular) (call : Caller)
    (mask : Mask) (path : List Step) :
    Finds call m h mask (seenAt mask r path) (h.sightAt? mask path (.value r)) := by
  obtain ⟨v, m₁, hshow, hgrows₁, hv⟩ := hm.shows hregular call mask
  obtain ⟨w, m₂, hwalk, hgrows₂, hw⟩ := walk_finds (hm.grows hgrows₁) hv call path
  exact ⟨w, m₂, .bind hshow hwalk, hgrows₁.trans hgrows₂, hw⟩

/-- The snapshot of a value under a mask is taken, and the script has the data in new objects. -/
def SnapshotCarries (call : Caller) (m : Machine) (mask : Mask) (r : Ref) (p : Plain) : Prop :=
  ∃ v e, Succeeds call m (snapshotValue r mask) v ⟨e, m.toBridge⟩ ∧ e.Carries m.objects.size v p

/-- On every path that leads somewhere under the second mask there is the same under the first, but
for what the second hides. -/
def SeesNoMore (call : Caller) (m : Machine) (mask₁ mask₂ : Mask) (r : Ref) : Prop :=
  ∀ path, ∃ w₁ m₁ w₂ m₂, Succeeds call m (seenAt mask₁ r path) w₁ m₁ ∧
    Succeeds call m (seenAt mask₂ r path) w₂ m₂ ∧
    ∀ v₂, w₂ = some v₂ → ∃ v₁, w₁ = some v₁ ∧ Narrows call m₁ m₂ mask₁ mask₂ v₁ v₂

theorem Shows.narrows {s : Sight} (hv₁ : Shows m₁ h mask₁ v₁ s) (hv₂ : Shows m₂ h mask₂ v₂ s)
    (hheap₁ : m₁.heap = h) (hheap₂ : m₂.heap = h) (hh : h.WellTyped) (hmasks : mask₁ ≤ mask₂)
    (call : Caller) : Narrows call m₁ m₂ mask₁ mask₂ v₁ v₂ := by
  cases s with
  | value r => exact hv₁.2.narrows hv₂.2 hheap₁ hheap₂ hh hmasks call
  | present | unset =>
      cases hv₁
      cases hv₂
      exact .primitive rfl

theorem seesNoMore_of_le (hm : m.Presents h limit) (hregular : (Image.of h r).Regular)
    (hmasks : mask₁ ≤ mask₂) (call : Caller) : SeesNoMore call m mask₁ mask₂ r := by
  intro path
  obtain ⟨w₁, m₁, hseen₁, hgrows₁, hw₁⟩ := seenAt_finds hm hregular call mask₁ path
  obtain ⟨w₂, m₂, hseen₂, hgrows₂, hw₂⟩ := seenAt_finds hm hregular call mask₂ path
  refine ⟨w₁, m₁, w₂, m₂, hseen₁, hseen₂, fun v₂ hv₂ => ?_⟩
  subst hv₂
  cases hfound : h.sightAt? mask₂ path (.value r) with
  | none =>
      rw [hfound] at hw₂
      cases hw₂
  | some s =>
      -- the path leads to the same under the smaller mask
      rw [hfound] at hw₂
      rw [Heap.sightAt?_of_le hmasks hfound] at hw₁
      cases hw₂ with
      | some hv₂ =>
          cases hw₁ with
          | @some v₁ _ hv₁ =>
              exact ⟨v₁, rfl, hv₁.narrows hv₂ (hgrows₁.heap.trans hm.heap_eq)
                (hgrows₂.heap.trans hm.heap_eq) hm.wellTyped hmasks call⟩

/-- Of a regular value, a larger mask shows what a smaller one shows, but for fields of records that it
hides: live, on every path into the value, and in the snapshot. -/
theorem larger_mask_hides (hm : m.Sound) (hcoherent : m.Coherent) (hintact : m.Intact)
    (hclear : m.Clear m.objects.size) (hheritable : m.Heritable m.objects.size)
    (hregular : (Image.of m.heap r).Regular) (hmasks : mask₁ ≤ mask₂) (n : Nat) :
    SeesNoMore (invoke (n + 1)) m mask₁ mask₂ r ∧
    ∃ p₁ p₂, SnapshotCarries (invoke (n + 1)) m mask₁ r p₁ ∧
      SnapshotCarries (invoke (n + 1)) m mask₂ r p₂ ∧ (Image.of m.heap r).Pruned p₁ p₂ := by
  have hpresents : m.Presents m.heap m.objects.size :=
    ⟨rfl, hm.heap.left, ⟨hintact, Nat.le_refl _, hm.integers⟩, hcoherent⟩
  have hpermits : m.Permits (invoke (n + 1)) True m.objects.size :=
    ⟨hclear, fun _ => ⟨hheritable, n, rfl⟩⟩
  refine ⟨seesNoMore_of_le hpresents hregular hmasks _, _, _,
    snapshotValue_carries hpermits hregular mask₁, snapshotValue_carries hpermits hregular mask₂, ?_⟩
  exact hregular.pruned hmasks

/-! ### Visits in logs -/

/-- A record of two numbers, of which one is written to logs, and a table with the record at the name
that sets prototypes. -/
def visitHeap : Heap :=
  let visit := .record 0 "visit" [⟨"pages", .atom .int, .none⟩, ⟨"errors", .atom .int, .log⟩]
  ⟨#[⟨.atom .int, .atom (.int 1)⟩, ⟨.atom .int, .atom (.int 2)⟩,
    ⟨visit, .record [some 0, some 1]⟩, ⟨.atom .string, .atom (.string "__proto__")⟩,
    ⟨.table .string (some visit), .table [(.string "__proto__", ⟨3, some 2⟩)]⟩]⟩

/-- An engine whose objects can be given other prototypes. -/
def heirEngine : Engine :=
  let engine := portEngine [(.name "__proto__", .accessor none (some 12) false true)]
  { engine with
    objects := engine.objects.push
      ⟨.function (.builtin (.object .replaceProto)) false, none, true, []⟩ }

theorem visitHeap_wellTyped : visitHeap.WellTyped := by decide

theorem visitHeap_sound (e : Engine) : (⟨e, .start visitHeap⟩ : Machine).Sound :=
  sound_start visitHeap_wellTyped

theorem visitHeap_coherent (e : Engine) : (⟨e, .start visitHeap⟩ : Machine).Coherent := by
  have hdeclares : visitHeap.Declares fun _ => ["pages", "errors"] := by decide
  exact ⟨_, hdeclares, OffsetCache.coherent_empty⟩

theorem visitHeap_regular : (Image.of visitHeap 4).Regular := by
  have himage := visitHeap_wellTyped.image_eq (r := 4) (n := 3) (by decide)
  rw [himage]
  refine .table fun e he i hi => ?_
  obtain rfl := List.mem_singleton.mp he
  cases hi
  refine .record (by decide) (by decide) fun p hp i hi => ?_
  rcases List.mem_pair.mp hp with rfl | rfl
  · cases hi
    exact .atom
  · cases hi
    exact .atom

theorem heirEngine_bare : heirEngine.Bare 13 := by
  refine ⟨by decide, nofun, rfl, rfl, fun k hk => ?_, rfl⟩
  change ([(Key.name "__proto__", Property.accessor none (some 12) false true)]).lookup k = none
  rw [List.lookup_cons, beq_eq_false_iff_ne.mpr hk]
  rfl

theorem heirEngine_intact : heirEngine.Intact 13 :=
  heirEngine_bare.intact (by decide) nofun rfl ⟨1, false, true, true, true, by decide, rfl, rfl⟩

theorem heirEngine_heritable : heirEngine.Heritable 13 where
  members name hname :=
    heirEngine_bare.passes_array (by simpa [Key.name] using hname) trivial 11 fun _ => trivial
  object := ⟨by decide, nofun, rfl⟩
  array := ⟨by decide, nofun, rfl, rfl, rfl⟩
  setter := ⟨12, none, false, true, false, by decide, rfl, rfl⟩

/-- The record that another record inherits from in the snapshot loses a member to the mask of logs, and
so does what a script sees of the record in the table. -/
theorem larger_mask_hides_visits :
    let m : Machine := ⟨heirEngine, .start visitHeap⟩
    m.Sound ∧ m.Coherent ∧ m.Intact ∧ m.Clear m.objects.size ∧ m.Heritable m.objects.size ∧
      (Image.of m.heap 4).Regular ∧ Mask.all ≤ .loggable ∧
      SeesNoMore (invoke 9) m .all .loggable 4 ∧
      ∃ p₁ p₂, SnapshotCarries (invoke 9) m .all 4 p₁ ∧
        SnapshotCarries (invoke 9) m .loggable 4 p₂ ∧ (Image.of m.heap 4).Pruned p₁ p₂ := by
  intro m
  have hmasks : Mask.all ≤ .loggable := rfl
  refine ⟨visitHeap_sound _, visitHeap_coherent _, heirEngine_intact, heirEngine_bare.clear,
    heirEngine_heritable, visitHeap_regular, hmasks, ?_⟩
  exact larger_mask_hides (visitHeap_sound heirEngine) (visitHeap_coherent heirEngine)
    heirEngine_intact heirEngine_bare.clear heirEngine_heritable visitHeap_regular hmasks 8

/-- Plain objects inherit a property that cannot be written, of the name of a field that the smaller
mask shows and the larger one hides: only the snapshot under the larger mask can be taken. -/
theorem smaller_mask_fails :
    let m : Machine :=
      ⟨portEngine [(.name "pages", .data (.ofInt 0) false false true)], .start visitHeap⟩
    m.Sound ∧ m.Coherent ∧ (Image.of m.heap 2).Regular ∧ Mask.all ≤ .loggable ∧
      returnedProperties (m.act 9 (snapshotValue 2 .loggable)) =
        some [(.name "errors", .plain (.ofInt 2))] ∧
      ¬ ∃ p₁ p₂, SnapshotCarries (invoke 9) m .all 2 p₁ ∧
        SnapshotCarries (invoke 9) m .loggable 2 p₂ ∧ (Image.of m.heap 2).Pruned p₁ p₂ := by
  intro m
  have hregular : (Image.of visitHeap 2).Regular :=
    visitHeap_wellTyped.regular_slot visitHeap_regular (List.mem_singleton.mpr rfl)
  refine ⟨visitHeap_sound _, visitHeap_coherent _, hregular, rfl, by decide +kernel, ?_⟩
  rintro ⟨p₁, p₂, ⟨v, e, hsnapshot, -⟩, -⟩
  have hthrows : (m.act 9 (snapshotValue 2 .all)).1.isOk = false := by decide +kernel
  have htaken : m.act 9 (snapshotValue 2 .all) = (.ok v, ⟨e, m.toBridge⟩) := hsnapshot
  rw [htaken] at hthrows
  cases hthrows

end HostView.Script
