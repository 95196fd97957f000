import HostView.Proofs.Exposure.Traps
import HostView.Proofs.Masks

/-! # Members of snapshots

What the snapshot of a record or a table has: an own property for each field that is shown and set,
or for each entry, with the snapshot of that part, and no other property. The object is built by
assignment, so that the one name at which objects have the setter of prototypes is lost: what is
assigned there is no property.
-/

namespace HostView

namespace Heap

variable {h : Heap} {r s : Ref} {mask : Mask}

/-- What is shown of a value under a mask, by name: the fields of a record that are exposed and set, or
the entries of a table. -/
def shownMembers (h : Heap) (mask : Mask) (r : Ref) : List (String × Ref) :=
  match h.cell r with
  | ⟨.record _ _ fields, .record slots⟩ =>
    (fields.zip slots).filterMap fun (f, slot) =>
      if mask.exposes f.attributes then slot.map (f.name, ·) else none
  | ⟨.table key _, .table entries⟩ =>
    entries.filterMap fun (a, e) => e.yield.map (a.render key, ·)
  | _ => []

/-- All entries of a table that yields values are shown. -/
theorem WellTyped.shownMembers_table (hh : h.WellTyped) {key : AtomType} {yield : HostType}
    {entries : Entries Entry} (hcell : h.cell r = ⟨.table key (some yield), .table entries⟩) :
    (h.shownMembers mask r).map (·.1) = entries.map fun x => x.1.render key := by
  have hfits := hh.fits r
  rw [shownMembers, hcell, List.map_filterMap]
  rw [Heap.typeOf, Heap.contentOf, hcell] at hfits
  cases hfits with
  | table hentries =>
      clear hcell
      induction entries with
      | nil => rfl
      | cons x entries ih =>
          obtain ⟨a, e⟩ := x
          have hyield := (hentries a e List.mem_cons_self).yield
          obtain ⟨v, hv⟩ : ∃ v, e.yield = some v := by
            cases he : e.yield with
            | none =>
                rw [he] at hyield
                exact hyield.elim
            | some v => exact ⟨v, rfl⟩
          have hrest := ih fun b f hf => hentries b f (List.mem_cons_of_mem _ hf)
          simp only [List.filterMap_cons, hv, Option.map_some, List.map_cons, hrest]

/-- What is shown has different names. -/
theorem WellTyped.shownMembers_nodup (hh : h.WellTyped) (hordered : h.Ordered)
    (hapart : (h.typeOf r).NamesApart) : ((h.shownMembers mask r).map (·.1)).Nodup := by
  have hcell := h.cell_eq r
  have hfits := hh.fits r
  generalize h.typeOf r = type, h.contentOf r = content at hcell hfits hapart
  cases hapart with
  | @record d name fields hdistinct =>
      cases hfits with
      | @record _ _ _ slots hlength =>
          have hnames : ((fields.zip slots).map (·.1.name)).Nodup := by
            have hfields : (fields.zip slots).map Prod.fst = fields :=
              List.map_fst_zip (Nat.le_of_eq hlength.symm)
            rw [← hfields, List.map_map] at hdistinct
            exact hdistinct
          rw [shownMembers, hcell]
          refine List.pairwise_map.mpr (List.pairwise_filterMap.mpr ?_)
          refine (List.pairwise_map.mp hnames).imp fun {x y} hne member hx member' hy => ?_
          have hname {z : Field HostType × Option Ref} {b : String × Ref}
              (hz : (if mask.exposes z.1.attributes then z.2.map (z.1.name, ·) else none) = some b) :
              b.1 = z.1.name := by
            obtain ⟨-, hz⟩ := Option.ite_none_right_eq_some.mp hz
            obtain ⟨s, -, rfl⟩ := Option.map_eq_some_iff.mp hz
            rfl
          rw [hname hx, hname hy]
          exact hne
  | @table key yield hdistinct =>
      cases hfits with
      | table =>
          rw [hh.shownMembers_table hcell]
          exact hh.names_nodup hordered hcell hdistinct

/-- The snapshot of a record or table is an object of the snapshots of what is shown. -/
theorem WellTyped.snapshot_eq (hh : h.WellTyped) (hapart : (h.typeOf r).NamesApart) :
    (Image.of h r).snapshot mask = .object ((h.shownMembers mask r).map fun (name, s) =>
      (name, (Image.of h s).snapshot mask)) := by
  obtain ⟨n, hn⟩ : ∃ n, (h.typeOf r).depth = n + 1 :=
    Nat.exists_eq_succ_of_ne_zero (Nat.ne_of_gt (HostType.depth_pos _))
  have hread {s : Ref} (hs : some s ∈ (h.contentOf r).slots) :
      Image.read h n s = Image.of h s := by
    have hlt := hh.depth_lt hs
    exact (hh.image_eq (by omega)).symm
  have hcell := h.cell_eq r
  have hfits := hh.fits r
  rw [hh.image_eq (n := n + 1) (Nat.le_of_eq hn), Image.read, shownMembers, hcell]
  generalize h.typeOf r = type, h.contentOf r = content at hfits hapart hread
  cases hapart with
  | @record d name fields =>
      cases hfits with
      | @record _ _ _ slots =>
          simp only [Image.snapshot, Image.snapshotParts_eq, List.filterMap_map, List.map_filterMap]
          congr 1
          refine List.filterMap_congr fun x hx => ?_
          obtain ⟨f, slot⟩ := x
          cases slot with
          | none => by_cases hf : mask.exposes f.attributes <;> simp [hf]
          | some s =>
              have hs : Image.read h n s = Image.of h s := hread (List.of_mem_zip hx).2
              by_cases hf : mask.exposes f.attributes <;> simp [hf, hs]
  | @table key yield =>
      cases hfits with
      | @table _ _ entries =>
          simp only [Image.snapshot, Image.snapshotEntries_eq, List.filterMap_map, List.map_filterMap]
          congr 1
          refine List.filterMap_congr fun x hx => ?_
          obtain ⟨a, e⟩ := x
          cases he : e.yield with
          | none => simp [he]
          | some s =>
              have hs : Image.read h n s = Image.of h s :=
                hread (List.mem_map.mpr ⟨(a, e), hx, he⟩)
              simp [he, hs]

end Heap

namespace Script

variable {m : Machine} {e : Engine} {low limit f : ObjectId} {v : Value} {r : Ref} {mask : Mask}
  {members : List (String × Plain)}

/-! ### Objects with members -/

/-- An ordinary object, one of those from `low` on, has just the members: each is one property, in
their order, whose value was built of the data. -/
structure Engine.HasMembers (e : Engine) (low o : ObjectId) (members : List (String × Plain)) :
    Prop where
  fresh : low ≤ o
  inside : o < e.objects.size
  kind : (e.object o).kind = .ordinary
  properties : List.Forall₂
    (fun entry member => entry.1 = Key.name member.1 ∧
      ∃ v, entry.2 = .plain v ∧ e.Carries (o + 1) v member.2)
    (e.object o).properties members

/-- What data with members of different names is built as has these members, without the one that is
assigned to the prototype. -/
theorem Engine.Carries.hasMembers (h : e.Carries low v (.object members))
    (hdistinct : (members.map (·.1)).Nodup) :
    ∃ o, v = .object o ∧ e.HasMembers low o (members.filter (·.1 ≠ "__proto__")) := by
  cases h with
  | scalar hp => cases hp
  | @object _ o values _ hlow hlt hobject hnames hmembers =>
      have hpairs : List.Forall₂ (fun x y => x.1 = y.1 ∧ e.Carries (o + 1) x.2 y.2) values members := by
        have hlength : values.length = members.length := by
          simpa using congrArg List.length hnames
        refine List.forall₂_iff_get.mpr ⟨hlength, fun i hi hi' => ⟨?_, ?_⟩⟩
        · have hname := congrArg (·[i]?) hnames
          simpa [hi, hi'] using hname
        · exact hmembers i _ _ (List.getElem?_eq_getElem hi) (List.getElem?_eq_getElem hi')
      have hkept := List.rel_filter (p := (·.1 ≠ "__proto__")) (q := (·.1 ≠ "__proto__"))
        (fun x y hxy => by simp [hxy.1]) hpairs
      refine ⟨o, rfl, hlow, hlt, ?_, ?_⟩
      · rw [hobject]
        exact (Object.ofData_assembled values).kind
      · rw [hobject, Object.properties_assembled (hnames ▸ hdistinct), Object.plainWith,
          List.forall₂_map_left_iff]
        exact hkept.imp fun x y hxy => ⟨congrArg Key.name hxy.1, x.2, rfl, hxy.2⟩

/-- The object that a function returns which takes snapshots has one own property for each field that is
shown and set, or for each entry, whose value is the snapshot of that part, and no others. Only the name
at which objects have the setter of prototypes is missing. -/
theorem snapshot_members (hm : m.Sound) (hordered : m.heap.Ordered) (hclear : m.Clear limit)
    (hheritable : m.Heritable limit) (hlimit : limit ≤ m.objects.size) (hf : m.Snapshots f r mask)
    (hapart : (m.heap.typeOf r).NamesApart) (hbounded : (Image.of m.heap r).Bounded) (n : Nat)
    (this : Value) (arguments : List Value) :
    ∃ o e, Gives (invoke (n + 2)) m (callValue (.object f) this arguments) (.object o)
        ⟨e, m.toBridge⟩ ∧
      m.toEngine.Keeps (fun _ => True) e ∧
      e.HasMembers m.objects.size o
        (((m.heap.shownMembers mask r).filter (·.1 ≠ "__proto__")).map fun (name, s) =>
          (name, (Image.of m.heap s).snapshot mask)) ∧
      ((m.heap.shownMembers mask r).map (·.1)).Nodup ∧
      ∀ key yield entries, m.heap.cell r = ⟨.table key (some yield), .table entries⟩ →
        (m.heap.shownMembers mask r).map (·.1) = entries.map fun x => x.1.render key := by
  have hh : m.heap.WellTyped := hm.heap.left
  have hpermits : m.Permits (invoke (n + 1)) True limit := ⟨hclear, fun _ => ⟨hheritable, n, rfl⟩⟩
  have hnames : ((m.heap.shownMembers mask r).map (·.1)).Nodup :=
    hh.shownMembers_nodup hordered hapart
  obtain ⟨number, constructs, hkind, hnumber⟩ := hf
  obtain ⟨v, e, htaken, hkeeps, hv⟩ := snapshotValue_assembles hpermits hlimit hbounded mask
  rw [hh.snapshot_eq hapart] at hv
  obtain ⟨o, rfl, ho⟩ := hv.hasMembers (by simpa [Function.comp_def] using hnames)
  have hperform : Succeeds (invoke (n + 1)) m
      (Callable.perform (.snapshot number) f (.call this) arguments) (.object o) ⟨e, m.toBridge⟩ := by
    unfold Callable.perform
    refine .get_bind ?_
    rw [hnumber]
    exact htaken
  refine ⟨o, e, callValue_gives hkind hperform, hkeeps, ?_, hnames, fun _ _ _ hcell =>
    hh.shownMembers_table hcell⟩
  rw [List.filter_map] at ho
  exact ho

/-! ### A table with the names of methods -/

/-- A table of numbers at three names that objects inherit properties of. -/
def nameHeap : Heap :=
  ⟨#[⟨.atom .int, .atom (.int 1)⟩, ⟨.atom .int, .atom (.int 2)⟩, ⟨.atom .int, .atom (.int 3)⟩,
    ⟨.atom .string, .atom (.string "__proto__")⟩, ⟨.atom .string, .atom (.string "constructor")⟩,
    ⟨.atom .string, .atom (.string "toJSON")⟩,
    ⟨.table .string (some (.atom .int)), .table [(.string "__proto__", ⟨3, some 0⟩),
      (.string "constructor", ⟨4, some 1⟩), (.string "toJSON", ⟨5, some 2⟩)]⟩]⟩

/-- A script has been given the function that takes snapshots of the table. -/
def nameMachine : Machine :=
  ⟨{ heirEngine with
      objects := heirEngine.objects.push ⟨.function (.snapshot 0) false, none, true, []⟩ },
    { Bridge.start nameHeap with snapshots := #[(6, .all)] }⟩

theorem nameHeap_wellTyped : nameHeap.WellTyped := by decide

theorem nameHeap_ordered : nameHeap.Ordered := by decide

theorem nameHeap_bounded : (Image.of nameHeap 6).Bounded := by
  rw [nameHeap_wellTyped.image_eq (r := 6) (n := 2) (by decide)]
  refine .table fun e he i hi => ?_
  rcases List.mem_cons.mp he with rfl | he
  · cases hi
    exact .atom
  · rcases List.mem_pair.mp he with rfl | rfl
    all_goals
      cases hi
      exact .atom

theorem nameMachine_sound : nameMachine.Sound :=
  Machine.sound_iff.mpr ⟨nameHeap_wellTyped, nofun, by decide, IntegerCache.exact_empty⟩

/-- The other two names are properties of the snapshot. -/
theorem snapshot_members_names :
    let m := nameMachine
    m.Sound ∧ m.heap.Ordered ∧ m.Clear 13 ∧ m.Heritable 13 ∧ 13 ≤ m.objects.size ∧
      m.Snapshots 13 6 .all ∧ (m.heap.typeOf 6).NamesApart ∧ (Image.of m.heap 6).Bounded ∧
      ∃ o e, Gives (invoke 9) m (callValue (.object 13) .undefined []) (.object o) ⟨e, m.toBridge⟩ ∧
        e.HasMembers m.objects.size o [("constructor", .int 2), ("toJSON", .int 3)] := by
  intro m
  have hkeeps : heirEngine.Keeps (· < 13) m.toEngine := .push _
  have hclear : m.Clear 13 := heirEngine_bare.clear.keeps hkeeps (Nat.le_refl _)
  have hheritable : m.Heritable 13 := heirEngine_heritable.keeps hkeeps (Nat.le_refl _)
  have hf : m.Snapshots 13 6 .all := ⟨0, false, rfl, rfl⟩
  have hapart : (m.heap.typeOf 6).NamesApart := .table trivial
  refine ⟨nameMachine_sound, nameHeap_ordered, hclear, hheritable, by decide, hf, hapart,
    nameHeap_bounded, ?_⟩
  obtain ⟨o, e, hcall, -, ho, -⟩ := snapshot_members nameMachine_sound nameHeap_ordered hclear
    hheritable (by decide) hf hapart nameHeap_bounded 7 .undefined []
  exact ⟨o, e, hcall, ho⟩

/-- The entry at the name of the setter is lost. -/
theorem snapshot_loses_member :
    let m := nameMachine
    m.Sound ∧ m.heap.Ordered ∧ m.Snapshots 13 6 .all ∧ (m.heap.typeOf 6).NamesApart ∧
      m.heap.shownMembers .all 6 = [("__proto__", 0), ("constructor", 1), ("toJSON", 2)] ∧
      ¬ ∃ o e, Gives (invoke 9) m (callValue (.object 13) .undefined []) (.object o)
          ⟨e, m.toBridge⟩ ∧
        e.HasMembers m.objects.size o ((m.heap.shownMembers .all 6).map fun (name, s) =>
          (name, (Image.of m.heap s).snapshot .all)) := by
  intro m
  refine ⟨nameMachine_sound, nameHeap_ordered, ⟨0, false, rfl, rfl⟩, .table trivial, rfl, ?_⟩
  rintro ⟨o, e, hcall, ho⟩
  let taken : Action Value := liftM (callValue (.object 13) .undefined [])
  have hreturned : returnedProperties (m.act 9 taken) =
      some [(.name "constructor", .plain (.ofInt 2)), (.name "toJSON", .plain (.ofInt 3))] := by
    decide +kernel
  have hran : m.act 9 taken = (.ok (.object o), ⟨e, m.toBridge⟩) := Succeeds.routine hcall
  rw [hran] at hreturned
  have hlength := ho.properties.length_eq
  rw [Option.some.inj hreturned] at hlength
  exact absurd hlength (by decide)

end Script

end HostView
