import HostView.Proofs.Exposure.Representation

/-! # Exposing host values

What a script is shown for a host value stands for it, as long as the prototypes of plain objects and
of arrays are intact. The items of a vector are shown one after the other, each on the machine that
the one before it left; the array that holds them grows by one item at a time.
-/

namespace HostView.Script

variable {call : Caller} {m m' : Machine} {o : ObjectId} {r : Ref} {mask : Mask} {limit n : Nat}

/-- Machines on which host values can be exposed. -/
structure Machine.Ready (m : Machine) (limit : Nat) : Prop where
  intact : m.toEngine.Intact limit
  limit_le : limit ≤ m.objects.size
  exact : m.integers.Exact

theorem Machine.Ready.grows {P : ObjectId → Prop} (h : m.Ready limit) (hgrows : m.Grows P m')
    (hP : ∀ o < limit, P o) : m'.Ready limit where
  intact := h.intact.keeps (hgrows.engine.mono fun o _ ho => hP o ho) h.limit_le
  limit_le := Nat.le_trans h.limit_le hgrows.size_le
  exact := hgrows.integers h.exact

/-- The action shows a host value under a mask: the machine grows, and what is given stands for the
value. -/
def Exposes {mask : Mask} (call : Caller) (m : Machine) (a : Action Value) (r : Ref) : Prop :=
  ∃ v m', Succeeds call m a v m' ∧ m.Grows (fun _ => True) m' ∧
    Represents m' m.heap mask m.objects.size v r

theorem Exposes.get_bind {f : Machine → Action Value} (h : @Exposes mask call m (f m) r) :
    @Exposes mask call m (get >>= f) r :=
  h

/-! ### Ports -/

theorem portValue_runs {e : Engine}
    (hnumber : e.Passes limit (.name "port") Property.Open limit (some Intrinsic.object))
    (hprotocol : e.Passes limit (.name "proto") Property.Open limit (some Intrinsic.object))
    (hlimit : limit ≤ e.objects.size) (p : Port) :
    ∃ e', e.Runs (portValue p) (.object e.objects.size) e' ∧
      e.Made e' [("port", .ofInt p.number.toNat), ("proto", .string p.protocol.render)] := by
  obtain ⟨e₁, hset₁, hmade₁⟩ := e.made_new.add "port" (.ofInt p.number.toNat) rfl hnumber hlimit
  obtain ⟨e₂, hset₂, hmade₂⟩ := hmade₁.add "proto" (.string p.protocol.render) rfl hprotocol hlimit
  refine ⟨e₂, ?_, hmade₂⟩
  unfold portValue
  exact .bind newPlain_runs (.bind hset₁ (.bind hset₂ .pure))

/-! ### Atoms -/

theorem atomValue_exposes (h : m.Ready limit) {τ : AtomType} {a : Atom}
    (hcell : m.heap.cell r = ⟨.atom τ, .atom a⟩) : @Exposes mask call m (atomValue τ a) r := by
  cases a with
  | count c =>
      obtain ⟨hvalue, hexact⟩ := h.exact.get c
      let m' : Machine := { m with integers := (m.integers.get c).2 }
      have hgives : Succeeds call m (atomValue τ (.count c)) (.bigInt c.toNat) m' := by
        rw [← hvalue]
        exact .modifyGet _
      exact ⟨_, m', hgives, ⟨.refl _, rfl, .refl _, fun _ => hexact, fun hm => hm.congr rfl rfl⟩,
        .atom hcell rfl⟩
  | port p =>
      obtain ⟨e, hruns, hmade⟩ := portValue_runs h.intact.number h.intact.protocol h.limit_le p
      exact ⟨_, _, .routine (hruns call m.toBridge), .ofEngine hmade.keeps,
        .port hcell (Nat.le_refl _) hmade.lt hmade.object_eq⟩
  | _ => exact ⟨_, m, .pure, .refl m, .atom hcell rfl⟩

/-! ### Records and tables -/

/-- The engine with the two objects of a live wrap: its own, and the proxy that stands before it. -/
def Engine.withLive (e : Engine) (w : WrapId) : Engine :=
  { e with
    objects := (e.objects.push ⟨.wrap w, some Intrinsic.wrap, true, []⟩).push
      ⟨.proxy e.objects.size Intrinsic.bridge, none, true, []⟩ }

theorem Engine.keeps_withLive {P : ObjectId → Prop} (e : Engine) (w : WrapId) :
    e.Keeps P (e.withLive w) :=
  .trans (.push _) (.push (e := { e with objects := e.objects.push _ }) _)

theorem wrapObject_gives (call : Caller) (mask : Mask)
    (hkind : WrapKind.of (m.heap.typeOf r) ≠ .bare) :
    Succeeds call m (wrapObject mask r) (.object (m.objects.size + 1))
      ⟨m.toEngine.withLive m.wraps.wraps.size,
        { m.toBridge with
          wraps := (m.wraps.construct r mask (WrapKind.of (m.heap.typeOf r))).2.attach
            m.wraps.wraps.size }⟩ := by
  have hsize : (m.objects.push ⟨.wrap m.wraps.wraps.size, some Intrinsic.wrap, true, []⟩).size =
      m.objects.size + 1 := Array.size_push _
  rw [← hsize]
  unfold wrapObject
  refine .get_bind (.bind (.modifyGet _) (.bind (.routine (.modifyGet _)) ?_))
  refine .bind (.modifyGet _) ?_
  dsimp only
  split
  next hbare => exact absurd hbare hkind
  next => exact .bind (.routine (.modifyGet _)) .pure

theorem wrapObject_exposes (hkind : WrapKind.of (m.heap.typeOf r) ≠ .bare) :
    @Exposes mask call m (wrapObject mask r) r := by
  let kind := WrapKind.of (m.heap.typeOf r)
  let w := m.wraps.wraps.size
  let target : Object := ⟨.wrap w, some Intrinsic.wrap, true, []⟩
  let e : Engine := { m.toEngine with objects := m.objects.push target }
  let e' : Engine := m.toEngine.withLive w
  have hsize : e.objects.size = m.objects.size + 1 := by simp [e]
  have hsize' : e'.objects.size = m.objects.size + 2 := by simp [e', Engine.withLive]
  have htarget : e'.object m.objects.size = target :=
    (Engine.object_push_lt (hsize ▸ Nat.lt_succ_self _) _).trans (Engine.object_push_size target)
  have hproxy : e'.object e.objects.size = ⟨.proxy m.objects.size Intrinsic.bridge, none, true, []⟩ :=
    Engine.object_push_size _
  have hnew : (m.wraps.construct r mask kind).2.wrap? w =
      some ⟨some r, mask, kind, .constructed⟩ := by
    simp [Ledger.construct, Ledger.wrap?, w]
  have hattached : ∃ state, ((m.wraps.construct r mask kind).2.attach w).wrap? w =
      some ⟨some r, mask, kind, state⟩ := Ledger.wrap?_of_attach hnew
  obtain ⟨state, hwrap⟩ := hattached
  refine ⟨_, _, wrapObject_gives call mask hkind,
    ⟨m.keeps_withLive w, rfl, Ledger.keeps_wrap _ _ _ _ _, id, fun hm => hm.congr rfl rfl⟩, ?_⟩
  rw [← hsize]
  refine .held (hsize ▸ Nat.le_succ _) (Nat.le_refl _) ?_ ?_ hkind hproxy htarget hwrap
  · show e.objects.size < e'.objects.size
    omega
  · show m.objects.size < e'.objects.size
    omega

/-! ### Vectors -/

/-- The value stands for what a slot holds; for an unset slot, undefined does. -/
def RepresentsSlot (m : Machine) (h : Heap) (mask : Mask) (low : ObjectId) (v : Value) :
    Option Ref → Prop
  | none => v = .undefined
  | some s => Represents m h mask low v s

theorem RepresentsSlot.mono {h : Heap} {low low' : ObjectId} {v : Value} {slot : Option Ref}
    (hv : RepresentsSlot m h mask low v slot)
    (hengine : m.toEngine.Keeps (low ≤ ·) m'.toEngine) (hwraps : m.wraps.Keeps m'.wraps)
    (hlow : low' ≤ low) : RepresentsSlot m' h mask low' v slot := by
  cases slot with
  | none => exact hv
  | some s => exact Represents.mono hv hengine hwraps hlow

/-- What an unset item is shown as is given without a step. -/
theorem slot_exposes (call : Caller) (m : Machine) (slot : Option Ref)
    (hwrap : ∀ s, slot = some s → @Exposes mask call m (wrapWithin mask n s) s) :
    ∃ v m', Succeeds call m
        (match slot with
          | some v => wrapWithin mask n v
          | none => pure .undefined) v m' ∧
      m.Grows (fun _ => True) m' ∧ RepresentsSlot m' m.heap mask m.objects.size v slot := by
  cases slot with
  | none => exact ⟨.undefined, m, .pure, .refl m, rfl⟩
  | some s => exact hwrap s rfl

/-- The items of a vector are shown and added to an array one by one. What was added before goes on to
stand for the items before, since only the array changes. -/
theorem items_expose {items : List Value} {slots : List (Option Ref)} (h : m.Ready limit)
    (hlimit : limit ≤ o) (ho : o < m.objects.size) (hobject : m.object o = .arrayWith items)
    (hlength : items.length + slots.length ≤ 2 ^ 32 - 1)
    (hwrap : ∀ s, some s ∈ slots → ∀ m', m'.Ready limit → m'.heap = m.heap →
      @Exposes mask call m' (wrapWithin mask n s) s) :
    ∃ added m',
      Succeeds call m ((slots.zipIdx items.length).forM fun (item, index) => do
        let v ←
          match item with
          | some v => wrapWithin mask n v
          | none => pure .undefined
        setProperty o (.item index) v) () m' ∧
      m.Grows (· ≠ o) m' ∧ m'.object o = .arrayWith (items ++ added) ∧
      added.length = slots.length ∧
      ∀ (i : Nat) (v : Value) (slot : Option Ref), added[i]? = some v → slots[i]? = some slot →
        RepresentsSlot m' m.heap mask o v slot := by
  induction slots generalizing m items with
  | nil =>
      exact ⟨[], m, .pure, .refl m, by rw [List.append_nil, hobject], rfl, fun i v s hv => by cases hv⟩
  | cons slot slots ih =>
      rw [List.length_cons] at hlength
      obtain ⟨v, m₁, hshow, hgrows₁, hv⟩ := slot_exposes call m slot
        fun s hs => hwrap s (hs ▸ List.mem_cons_self) m h rfl
      have hready₁ := h.grows hgrows₁ fun _ _ => trivial
      obtain ⟨e₂, hset, hkeeps₂, -, hobject₂⟩ := setItem_runs (v := v) hgrows₁.engine ho hobject
        (by omega) (hready₁.intact.items items.length) hlimit
      have hgrows₂ : m₁.Grows (· ≠ o) ⟨e₂, m₁.toBridge⟩ := .ofEngine hkeeps₂
      have hgrows : m.Grows (· ≠ o) ⟨e₂, m₁.toBridge⟩ :=
        (hgrows₁.mono fun _ _ _ => trivial).trans hgrows₂
      have hlength₂ : (items ++ [v]).length = items.length + 1 := by simp
      obtain ⟨added, m', hrest, hgrows', hobject', hsize, hadded⟩ := ih (m := ⟨e₂, m₁.toBridge⟩)
        (h.grows hgrows (ne_of_limit_le hlimit)) (Nat.lt_of_lt_of_le ho hgrows.size_le) hobject₂ (by omega)
        fun s' hs' m' hm' hheap' => hwrap s' (List.mem_cons_of_mem slot hs') m' hm'
          (hheap'.trans hgrows.heap)
      refine ⟨v :: added, m', ?_, hgrows.trans hgrows', ?_, by simp [hsize], ?_⟩
      · rw [hlength₂] at hrest
        rw [List.zipIdx_cons]
        cases slot <;> exact .bind (.bind hshow (.routine (hset call m₁.toBridge))) hrest
      · rw [hobject', List.append_assoc, List.singleton_append]
      · intro i w t hw ht
        cases i with
        | zero =>
            cases hw
            cases ht
            -- what is shown stays: only the array, which is older, changes afterwards
            have hafter := hgrows₂.trans hgrows'
            refine hv.mono (hafter.engine.mono fun x _ hx heq => ?_) hafter.wraps (Nat.le_of_lt ho)
            exact absurd ho (Nat.not_lt.mpr (heq ▸ hx))
        | succ i =>
            have hrepresents := hadded i w t hw ht
            rwa [hgrows.heap] at hrepresents

/-- A vector is shown as an array of what stands for its items. -/
theorem vector_exposes {type : HostType} {slots : List (Option Ref)} (h : m.Ready limit)
    (hcell : m.heap.cell r = ⟨.vector type, .vector slots⟩)
    (hlength : slots.length ≤ 2 ^ 32 - 1)
    (hwrap : ∀ s, some s ∈ slots → ∀ m', m'.Ready limit → m'.heap = m.heap →
      @Exposes mask call m' (wrapWithin mask n s) s) :
    @Exposes mask call m (wrapWithin mask (n + 1) r) r := by
  let blank : Engine := { m.toEngine with objects := m.objects.push (.arrayWith []) }
  have hblank : m.Grows (fun _ => True) ⟨blank, m.toBridge⟩ := .ofEngine (.push _)
  have hsize : m.objects.size < blank.objects.size := by simp [blank]
  obtain ⟨added, m', hitems, hgrows, hobject, hcount, hadded⟩ :=
    items_expose (h.grows hblank fun _ _ => trivial) h.limit_le hsize
      (Engine.object_push_size _) (by simpa using hlength) hwrap
  refine ⟨.object m.objects.size, m', ?_, hblank.andNew hgrows (Nat.le_refl _), ?_⟩
  · rw [wrapWithin]
    refine .get_bind ?_
    rw [hcell]
    exact .bind (.routine (newArray_runs call m.toBridge)) (.bind hitems .pure)
  · rw [List.nil_append] at hobject
    exact .vector hcell (Nat.le_refl _) (Nat.lt_of_lt_of_le hsize hgrows.size_le) hobject hcount
      (fun i v hv hslot => hadded i v none hv hslot) fun i v s hv hs => hadded i v (some s) hv hs

/-! ### All values -/

/-- Whatever a host value is, what is shown for it stands for it. -/
theorem wrapWithin_exposes (hh : m.heap.WellTyped) (h : m.Ready limit)
    (hshort : m.heap.Short (2 ^ 32 - 1) r) (hdepth : (m.heap.typeOf r).depth ≤ n) :
    @Exposes mask call m (wrapWithin mask n r) r := by
  induction n generalizing m r with
  | zero => exact absurd hdepth (Nat.not_le.mpr (HostType.depth_pos _))
  | succ n ih =>
      have hfits := hh.fits r
      have hcell := m.heap.cell_eq r
      generalize htype : m.heap.typeOf r = type, hcontent : m.heap.contentOf r = content at hfits hcell
      cases hfits with
      | atom hadmits =>
          rw [wrapWithin]
          refine .get_bind ?_
          rw [hcell]
          exact atomValue_exposes h hcell
      | @real kind x =>
          rw [wrapWithin]
          refine .get_bind ?_
          rw [hcell]
          exact ⟨.ofReal x, m, .pure, .refl m, .real hcell⟩
      | record | table =>
          rw [wrapWithin]
          refine .get_bind ?_
          rw [hcell]
          refine wrapObject_exposes ?_
          rw [htype]
          nofun
      | @vector element _ hitems =>
          cases hshort with
          | other hother => exact absurd hcontent (hother _)
          | @vector _ slots hslots hlength hshort =>
              rw [hslots] at hcontent
              cases hcontent
              refine vector_exposes h hcell hlength fun s hs m' hm' hheap => ?_
              have hs' : m.heap.Holds element s := hitems s hs
              have hsame := HostType.depth_eq_of_same hs'.same
              rw [htype, HostType.depth] at hdepth
              refine ih (hheap ▸ hh) hm' (hheap ▸ hshort s hs) ?_
              rw [hheap]
              omega

theorem wrapValue_shows (hh : m.heap.WellTyped) (h : m.Ready limit)
    (hshort : m.heap.Short (2 ^ 32 - 1) r) : @Exposes mask call m (wrapValue mask r) r :=
  .get_bind (wrapWithin_exposes hh h hshort (Nat.le_add_left _ _))

/-- A value without unset items is shown in any case if its vectors have a length of 32 bits. -/
theorem wrapValue_exposes (hh : m.heap.WellTyped) (h : m.Ready limit)
    (hfull : m.heap.Full (2 ^ 31) r) : @Exposes mask call m (wrapValue mask r) r :=
  wrapValue_shows hh h (hfull.short (by decide))

end HostView.Script
