import HostView.Proofs.Exposure.LiveProperties
import HostView.Script.Library.Objects

/-! # Live values spread

The plain object that a script makes of a live value by copying it member by member: it has a member for
every name that the live value shows, which stands for what is found there.
-/

namespace HostView

namespace Heap

variable {h : Heap} {r : Ref} {mask : Mask} {name : String} {s : Sight}

/-! ### What is listed -/

/-- The names that a live value lists, each with what is found there. -/
def sights (h : Heap) (mask : Mask) (r : Ref) : List (String × Sight) :=
  match h.cell r with
  | ⟨.record _ _ fields, .record slots⟩ =>
    ((fields.zip slots).filter fun x => mask.exposes x.1.attributes).map fun (f, slot) =>
      (f.name, .ofItem slot)
  | ⟨.table key _, .table entries⟩ => entries.map fun (a, e) => (a.render key, e.sight)
  | _ => []

theorem WellTyped.names_sights (hh : h.WellTyped) :
    (h.sights mask r).map (·.1) = Script.shownNames h ⟨r, mask, WrapKind.of (h.typeOf r)⟩ := by
  have hcell := h.cell_eq r
  have hfits := hh.fits r
  rw [sights, Script.shownNames, hcell]
  generalize h.typeOf r = type, h.contentOf r = content at hfits
  cases hfits with
  | atom | real | vector => rfl
  | table => simp [WrapKind.of]
  | @record d record fields slots hlength =>
      have hfields : (fields.zip slots).map Prod.fst = fields :=
        List.map_fst_zip (Nat.le_of_eq hlength.symm)
      simp only [WrapKind.of, HostType.fields]
      conv_rhs => rw [← hfields, List.filter_map, List.map_map]
      rw [List.map_map]
      rfl

/-- The names are distinct. -/
theorem WellTyped.sights_nodup (hh : h.WellTyped) (hordered : h.Ordered)
    (hapart : (h.typeOf r).NamesApart) : ((h.sights mask r).map (·.1)).Nodup := by
  have hcell := h.cell_eq r
  have hfits := hh.fits r
  rw [hh.names_sights, Script.shownNames]
  generalize h.typeOf r = type, h.contentOf r = content at hcell hfits hapart
  cases hapart with
  | record hdistinct => exact hdistinct.sublist (List.filter_sublist.map _)
  | table hdistinct =>
      cases hfits with
      | table =>
          rw [hcell]
          exact hh.names_nodup hordered hcell hdistinct

/-- A record or table whose members can be listed and copied one by one. -/
structure Listable (h : Heap) (r : Ref) : Prop where
  apart : (h.typeOf r).NamesApart
  /-- Every key is told by its text. -/
  keys : ∀ key yield entries a e, h.cell r = ⟨.table key yield, .table entries⟩ →
    (a, e) ∈ entries → ∀ s, a = .subnet s → s.Made
  parts : ∀ s, some s ∈ (h.contentOf r).slots → h.Short (2 ^ 32 - 1) s
  size_lt : (h.contentOf r).slots.length < 2 ^ 32

theorem Listable.live (hr : h.Listable r) : WrapKind.of (h.typeOf r) ≠ .bare := by
  have hapart := hr.apart
  generalize h.typeOf r = type at hapart
  cases hapart <;> nofun

/-- What is listed is in the record or table. -/
theorem slot_of_sight {v : Ref} (hmem : (name, .value v) ∈ h.sights mask r) :
    some v ∈ (h.contentOf r).slots := by
  unfold sights at hmem
  split at hmem
  next d record fields slots hcell =>
    obtain ⟨⟨f, slot⟩, hmem', heq⟩ := List.mem_map.mp hmem
    obtain ⟨-, hslot⟩ := Prod.mk.inj heq
    have hslots := (List.of_mem_zip (List.mem_of_mem_filter hmem')).2
    cases slot with
    | none => cases hslot
    | some w =>
        cases hslot
        rw [contentOf, hcell]
        exact hslots
  next key yield entries hcell =>
    obtain ⟨⟨a, e⟩, hmem', heq⟩ := List.mem_map.mp hmem
    obtain ⟨-, hyield⟩ := Prod.mk.inj heq
    unfold Entry.sight at hyield
    split at hyield
    next w hw =>
      cases hyield
      rw [contentOf, hcell]
      exact List.mem_map.mpr ⟨(a, e), hmem', hw⟩
    next => cases hyield
  next => cases hmem

theorem length_sights_le (mask : Mask) : (h.sights mask r).length ≤ (h.contentOf r).slots.length := by
  unfold sights
  split
  next hcell =>
    rw [contentOf, hcell, List.length_map]
    refine Nat.le_trans (List.length_filter_le _ _) ?_
    rw [List.length_zip]
    exact Nat.min_le_right _ _
  next hcell =>
    rw [contentOf, hcell]
    simp [Content.slots]
  next => exact Nat.zero_le _

end Heap

namespace Script

variable {m m' : Machine} {o p target : ObjectId} {r : Ref} {mask : Mask} {name : String} {s : Sight}
  {limit n : Nat} {P : ObjectId → Prop} {members : List (String × Value)}

/-- At a name that is listed there is found what is listed with it. -/
theorem Machine.Coherent.sight?_of_mem (hm : m.Coherent) (hh : m.heap.WellTyped) (hordered : m.heap.Ordered)
    (hr : m.heap.Listable r) (hmem : (name, s) ∈ m.heap.sights mask r) :
    (m.denoted (m.front r mask) (.name name)).sight? = some s := by
  have hcell := m.heap.cell_eq r
  have hfits := hh.fits r
  have hapart := hr.apart
  rw [Heap.sights, hcell] at hmem
  generalize htype : m.heap.typeOf r = type, hcontent : m.heap.contentOf r = content
    at hcell hfits hapart hmem
  cases hapart with
  | @record d record fields hdistinct =>
      cases hfits with
      | record =>
          obtain ⟨⟨f, slot⟩, hmem', heq⟩ := List.mem_map.mp hmem
          cases heq
          obtain ⟨hzip, hexposes⟩ := List.mem_filter.mp hmem'
          obtain ⟨i, hi⟩ := List.mem_iff_getElem?.mp hzip
          obtain ⟨hf, hslot⟩ := List.getElem?_zip_eq_some.mp hi
          have hshown : m.shownField? (m.front r mask) f.name = some (i, f) :=
            (hm.shownField?_eq (w := m.front r mask) htype hdistinct f.name).trans
              (exposedAt?_eq hdistinct hf hexposes)
          have hfield : m.heap.field (m.front r mask).value i = .ok slot := by
            simp [Heap.field, Heap.recordParts, Machine.front, hcell, hslot, bind, Except.bind]
          rw [Machine.denoted_record htype, hshown]
          simp only [hfield]
          rfl
  | @table key yield hdistinct =>
      cases hfits with
      | table hentries =>
          obtain ⟨⟨a, e⟩, hmem', heq⟩ := List.mem_map.mp hmem
          cases heq
          have hadmits := hh.admits_key htype hcontent hmem'
          have hname := AtomType.keyOfName_render hadmits hdistinct (hr.keys _ _ _ a e hcell hmem')
          have hentry : m.heap.entryAt? (m.front r mask).value a = some e :=
            (Heap.entryAt?_eq hcontent a).trans ((hordered _ _ hcontent).find?_eq_some.mpr hmem')
          rw [Machine.denoted_table htype, hname]
          simp only [hentry]
          rfl

/-! ### What is copied -/

/-- The members of an object stand for what has been found under their names. -/
def Depicts (m : Machine) (h : Heap) (mask : Mask) (low : ObjectId) (sights : List (String × Sight))
    (members : List (String × Value)) : Prop :=
  List.Forall₂ (fun x member => member.1 = x.1 ∧ RepresentsSight m h mask low member.2 x.2) sights members

namespace Depicts

variable {h : Heap} {low : ObjectId} {sights : List (String × Sight)}
  (hd : Depicts m h mask low sights members)

include hd

theorem names_eq : members.map (·.1) = sights.map (·.1) := by
  induction hd with
  | nil => rfl
  | cons hfirst _ ih => rw [List.map_cons, List.map_cons, hfirst.1, ih]

theorem settled : ∀ member ∈ members, member.2.Settled m.toEngine := by
  induction hd with
  | nil => nofun
  | cons hfirst _ ih => exact List.forall_mem_cons.mpr ⟨hfirst.2.settled, ih⟩

theorem exists_member (hmem : (name, s) ∈ sights) :
    ∃ v, (name, v) ∈ members ∧ RepresentsSight m h mask low v s := by
  induction hd with
  | nil => cases hmem
  | @cons x member _ _ hfirst _ ih =>
      obtain ⟨name', v⟩ := member
      rcases List.mem_cons.mp hmem with rfl | hrest
      · obtain ⟨rfl, hrepresents⟩ := hfirst
        exact ⟨v, List.mem_cons_self, hrepresents⟩
      · obtain ⟨v, hv, hrepresents⟩ := ih hrest
        exact ⟨v, List.mem_cons_of_mem _ hv, hrepresents⟩

/-- What has been found under a name is there. -/
theorem lookup (hdistinct : (sights.map (·.1)).Nodup) (hmem : (name, s) ∈ sights) :
    ∃ v, members.lookup name = some v ∧ RepresentsSight m h mask low v s := by
  obtain ⟨v, hv, hrepresents⟩ := hd.exists_member hmem
  exact ⟨v, lookup_member (hd.names_eq ▸ hdistinct) hv, hrepresents⟩

end Depicts

/-! ### Copying -/

/-- A live record or table stands behind the proxy, and scripts can copy it member by member. -/
structure Machine.Spreadable (m : Machine) (limit : Nat) (p target : ObjectId) (r : Ref) (mask : Mask) :
    Prop where
  ready : m.Ready limit
  traversable : m.Traversable limit
  coherent : m.Coherent
  wellTyped : m.heap.WellTyped
  ordered : m.heap.Ordered
  listable : m.heap.Listable r
  limit_le : limit ≤ p
  lt : p < m.objects.size
  proxy : m.object p = ⟨.proxy target Intrinsic.bridge, none, true, []⟩
  wraps : m.Wraps target r mask

namespace Machine.Spreadable

variable (h : m.Spreadable limit p target r mask)

include h

theorem grows (hgrows : m.Grows P m') (hP : ∀ o < limit, P o) (hp : P p) (htarget : P target) :
    m'.Spreadable limit p target r mask where
  ready := h.ready.grows hgrows hP
  traversable := h.traversable.keeps h.ready.intact (hgrows.engine.mono fun o _ ho => hP o ho)
    h.ready.limit_le
  coherent := hgrows.layouts h.coherent
  wellTyped := hgrows.heap ▸ h.wellTyped
  ordered := hgrows.heap ▸ h.ordered
  listable := hgrows.heap ▸ h.listable
  limit_le := h.limit_le
  lt := Nat.lt_of_lt_of_le h.lt hgrows.size_le
  proxy := (hgrows.engine.object_eq p h.lt hp (by rw [h.proxy]; nofun)).trans h.proxy
  wraps := h.wraps.grows_of hgrows htarget

theorem kind_eq : (m.object p).kind = .proxy target Intrinsic.bridge := by
  rw [h.proxy]

theorem isProxy_eq : (m.object p).isProxy = true := by
  rw [h.proxy]
  rfl

/-- The live value lists its names. -/
theorem ownKeys_gives (n : Nat) :
    ∃ m', Gives (invoke (n + 1)) m (ownKeys p) ((m.heap.sights mask r).map fun x => .name x.1) m' ∧
      m.Grows (fun _ => True) m' := by
  have hlength := Nat.lt_of_le_of_lt (Heap.length_sights_le mask) h.listable.size_lt
  obtain ⟨m', hkeys, hgrows⟩ := ownKeys_live h.wraps h.kind_eq h.ready h.traversable
    h.wellTyped.names_sights.symm (h.wellTyped.sights_nodup h.ordered h.listable.apart) (by simpa) n
  rw [List.map_map] at hkeys
  exact ⟨m', hkeys, hgrows⟩

variable (hmem : (name, s) ∈ m.heap.sights mask r)

include hmem

theorem short : ∀ v, s = .value v → m.heap.Short (2 ^ 32 - 1) v := by
  rintro v rfl
  exact h.listable.parts v (Heap.slot_of_sight hmem)

/-- There is an ordinary property at each of them. -/
theorem getOwnProperty_gives (n : Nat) :
    ∃ v m', Gives (invoke (n + 1)) m (getOwnProperty p (.name name)) (some (.plain v)) m' ∧
      m.Grows (fun _ => True) m' :=
  getOwnProperty_live h.wraps h.kind_eq h.ready h.traversable (Nat.lt_of_le_of_lt h.limit_le h.lt)
    h.wellTyped h.listable.live (Key.wellFormed_name name)
    (h.coherent.sight?_of_mem h.wellTyped h.ordered h.listable hmem) (h.short hmem) n

theorem getProperty_gives (n : Nat) :
    ∃ v m', Gives (invoke (n + 1)) m (getProperty p (.name name)) v m' ∧ m.Grows (fun _ => True) m' ∧
      RepresentsSight m' m.heap mask m.objects.size v s :=
  getProperty_found h.wraps h.kind_eq h.ready h.wellTyped h.listable.live (Key.wellFormed_name name)
    (h.coherent.sight?_of_mem h.wellTyped h.ordered h.listable hmem) (h.short hmem) n

end Machine.Spreadable

/-- A member is defined on a plain object that lacks it. -/
theorem defineMember_gives (call : Caller) {v : Value} (ho : o < m.objects.size)
    (hobject : m.object o = .plainWith members) (hname : members.lookup name = none) :
    ∃ e, Gives call m (defineMember o (.name name) v) () ⟨e, m.toBridge⟩ ∧
      m.toEngine.Keeps (· ≠ o) e ∧ e.object o = .plainWith (members ++ [(name, v)]) := by
  have hown : (m.object o).own? (.name name) = none := by
    rw [hobject, Object.own?_plainWith, hname]
    rfl
  obtain ⟨e, hdefine, hadds⟩ := defineProperty_runs (v := v) ho
    (hobject ▸ Object.plainWith_takes members) hown
  refine ⟨e, .bind (hdefine call m.toBridge) .pure, hadds.keeps, ?_⟩
  rw [hadds.object_eq, hobject, Object.plainWith_adding]

/-- The members are copied one after the other. What was copied before goes on to stand for what was found,
since only the object changes that gets the members. -/
theorem copyMembers_gives {sights : List (String × Sight)} (hp : m.Spreadable limit p target r mask)
    (hlisted : ∀ x ∈ sights, x ∈ m.heap.sights mask r) (hpo : p < o) (hto : target < o)
    (ho : o < m.objects.size) (hobject : m.object o = .plainWith members)
    (hdistinct : (members.map (·.1) ++ sights.map (·.1)).Nodup) (n : Nat) :
    ∃ added m', Gives (invoke (n + 1)) m
        (copyMembers p (defineMember o) false (sights.map fun x => .name x.1)) () m' ∧
      m.Grows (· ≠ o) m' ∧ m'.object o = .plainWith (members ++ added) ∧
      Depicts m' m.heap mask o sights added := by
  induction sights generalizing m members with
  | nil => exact ⟨[], m, .pure, .refl m, by simpa using hobject, .nil⟩
  | cons x sights ih =>
      obtain ⟨name, s⟩ := x
      have hmem := hlisted _ List.mem_cons_self
      -- the property is asked for, then it is read
      obtain ⟨v₁, m₁, hown, hgrows₁⟩ := hp.getOwnProperty_gives hmem n
      have hp₁ := hp.grows hgrows₁ (fun _ _ => trivial) trivial trivial
      obtain ⟨v, m₂, hget, hgrows₂, hv⟩ := hp₁.getProperty_gives (hgrows₁.heap ▸ hmem) n
      have hgrows₁₂ := hgrows₁.trans hgrows₂
      have hobject₂ : m₂.object o = .plainWith members :=
        (hgrows₁₂.engine.object_eq o ho trivial
          (hobject ▸ (Object.plainWith_takes members).settled)).trans hobject
      have hname : members.lookup name = none := by
        refine lookup_eq_none_of_notMem fun hold => ?_
        exact (List.nodup_append.mp hdistinct).2.2 name hold name List.mem_cons_self rfl
      obtain ⟨e, hdefine, hkeeps, hobject₃⟩ := defineMember_gives (v := v) (invoke (n + 1))
        (Nat.lt_of_lt_of_le ho hgrows₁₂.size_le) hobject₂ hname
      have hgrows₃ : m₂.Grows (· ≠ o) ⟨e, m₂.toBridge⟩ := .ofEngine hkeeps
      have hgrows : m.Grows (· ≠ o) ⟨e, m₂.toBridge⟩ :=
        (hgrows₁₂.mono fun _ _ _ => trivial).trans hgrows₃
      have hp₃ := hp.grows hgrows (ne_of_limit_le (Nat.le_trans hp.limit_le (Nat.le_of_lt hpo)))
        (Nat.ne_of_lt hpo) (Nat.ne_of_lt hto)
      obtain ⟨added, m', hrest, hgrows', hobject', hadded⟩ := ih hp₃
        (fun x hx => hgrows.heap ▸ hlisted x (List.mem_cons_of_mem _ hx))
        (Nat.lt_of_lt_of_le ho hgrows.size_le) hobject₃ (by simpa using hdistinct)
      refine ⟨(name, v) :: added, m', ?_, hgrows.trans hgrows', by simpa using hobject', ?_⟩
      · rw [List.map_cons, copyMembers, if_neg Bool.false_ne_true]
        exact .bind hown (.bind .pure (.bind hget (.bind hdefine hrest)))
      · rw [hgrows.heap] at hadded
        refine .cons ⟨rfl, ?_⟩ hadded
        -- what has been read is not the object that changes
        have hsize := Nat.lt_of_lt_of_le ho hgrows₁.size_le
        rw [hgrows₁.heap] at hv
        refine hv.mono ((hgrows₃.trans hgrows').mono fun x _ hx heq => ?_) (Nat.le_of_lt hsize)
        exact absurd hsize (Nat.not_lt.mpr (heq ▸ hx))

/-- A live value is spread to a plain object with a member for each name that it lists. -/
theorem spreadOf_gives (hp : m.Spreadable limit p target r mask) (n : Nat) :
    ∃ o members m', Gives (invoke (n + 1)) m (spreadOf (.object p)) (.object o) m' ∧
      m.Grows (fun _ => True) m' ∧ m'.object o = .plainWith members ∧
      Depicts m' m.heap mask m.objects.size (m.heap.sights mask r) members := by
  let blank : Machine :=
    ⟨{ m.toEngine with objects := m.objects.push (.plainWith []) }, m.toBridge⟩
  have hblank : m.Grows (fun _ => True) blank := .ofEngine (.push _)
  have hp₁ := hp.grows hblank (fun _ _ => trivial) trivial trivial
  obtain ⟨m₂, hkeys, hgrows₂⟩ := hp₁.ownKeys_gives n
  have hp₂ := hp₁.grows hgrows₂ (fun _ _ => trivial) trivial trivial
  have hsize : m.objects.size < blank.objects.size := by simp [blank]
  have hobject₂ : m₂.object m.objects.size = .plainWith [] :=
    (hgrows₂.engine.object_eq _ hsize trivial (by rw [Engine.object_push_size]; nofun)).trans
      (Engine.object_push_size _)
  obtain ⟨members, m', hcopy, hgrows, hobject, hmembers⟩ := copyMembers_gives hp₂
    (fun x hx => hgrows₂.heap ▸ hx) hp.lt hp.wraps.lt (Nat.lt_of_lt_of_le hsize hgrows₂.size_le) hobject₂
    (by simpa using hp.wellTyped.sights_nodup hp.ordered hp.listable.apart) n
  refine ⟨m.objects.size, members, m', ?_, (hblank.trans hgrows₂).andNew hgrows (Nat.le_refl _), hobject, ?_⟩
  · have hcopied : Gives (invoke (n + 1)) blank (copyFrom p (defineMember m.objects.size)) () m' := by
      unfold copyFrom
      refine .bind (getObject_gives p) ?_
      rw [if_pos hp₁.isProxy_eq]
      exact .bind hkeys hcopy
    exact .bind (newPlain_runs _ _) (.bind hcopied .pure)
  · rw [hgrows₂.heap] at hmembers
    exact hmembers

end Script

end HostView
