import HostView.Exposure.Snapshot
import HostView.Proofs.Host.Images
import HostView.Proofs.Host.Places
import HostView.Proofs.Host.Policy
import Mathlib.Data.List.Basic

/-! # Heaps that show the same

Two heaps are kin under a policy if they have the same values of the same types and differ only in
slots of fields that no mask exposes under which the record may be shown. Whatever is read at an
exposed place is the same in both, every host operation succeeds or fails alike in both, and it leaves
kin. Heaps are twins under some masks if they are kin where everything may be shown under any of them.
-/

namespace HostView

variable {ε α β γ δ : Type} {masks : Mask → Prop} {P : Policy}

/-! ### Alike outcomes -/

/-- Both succeed, with related results, or both fail with the same fault. -/
def Both (R : α → β → Prop) : Except ε α → Except ε β → Prop
  | .ok a, .ok b => R a b
  | .error e, .error e' => e = e'
  | _, _ => False

namespace Both

variable {R : α → β → Prop} {S : γ → δ → Prop} {x : Except ε α} {y : Except ε β}

theorem cases (h : Both R x y) :
    (∃ e, x = .error e ∧ y = .error e) ∨ ∃ a b, x = .ok a ∧ y = .ok b ∧ R a b := by
  cases x <;> cases y <;> simp only [Both] at h
  case error.error e _ => exact .inl ⟨e, rfl, h ▸ rfl⟩
  case ok.ok a b => exact .inr ⟨a, b, rfl, rfl, h⟩

theorem bind {f : α → Except ε γ} {f' : β → Except ε δ} (h : Both R x y)
    (hf : ∀ a b, R a b → Both S (f a) (f' b)) : Both S (x >>= f) (y >>= f') := by
  cases x <;> cases y <;> simp only [Both] at h
  case error.error => exact h
  case ok.ok => exact hf _ _ h

theorem of_eq {f : α → Except ε γ} {f' : α → Except ε δ} {x y : Except ε α} (h : x = y)
    (hf : ∀ a, x = .ok a → Both S (f a) (f' a)) : Both S (x >>= f) (y >>= f') := by
  subst h
  cases x with
  | error e => rfl
  | ok a => exact hf a rfl

/-- What holds of both results may be used to relate them. -/
theorem imp {R' : α → β → Prop} (h : Both R x y)
    (himp : ∀ a b, x = .ok a → y = .ok b → R a b → R' a b) : Both R' x y := by
  cases x <;> cases y <;> simp only [Both] at h ⊢
  case error.error => exact h
  case ok.ok => exact himp _ _ rfl rfl h

end Both

/-! ### Twins -/

/-- None of the masks exposes the field. -/
def Hidden (masks : Mask → Prop) (f : Field HostType) : Prop :=
  ∀ mask, masks mask → mask.exposes f.attributes = false

theorem not_hidden {mask : Mask} {f : Field HostType} (hmask : masks mask)
    (hexposes : mask.exposes f.attributes = true) : ¬ Hidden masks f := by
  intro hhidden
  rw [hhidden mask hmask] at hexposes
  cases hexposes

/-- Contents of one type that differ at most in the slots of hidden fields. -/
inductive Content.Alike (masks : Mask → Prop) : HostType → Content → Content → Prop where
  | refl {τ : HostType} {c : Content} : Alike masks τ c c
  | record {descriptor : Nat} {name : String} {fields : List (Field HostType)}
      {slots slots' : List (Option Ref)}
      (hslots : ∀ (i : Nat) (f : Field HostType), fields[i]? = some f → ¬ Hidden masks f →
        slots[i]? = slots'[i]?) :
      Alike masks (.record descriptor name fields) (.record slots) (.record slots')

/-- What is like the content of a record is that of a record, with the same exposed slots. -/
theorem Content.Alike.record_inv {descriptor : Nat} {name : String}
    {fields : List (Field HostType)} {slots : List (Option Ref)} {c : Content}
    (halike : Content.Alike masks (.record descriptor name fields) (.record slots) c) :
    ∃ slots', c = .record slots' ∧ ∀ (i : Nat) (f : Field HostType), fields[i]? = some f →
      ¬ Hidden masks f → slots[i]? = slots'[i]? := by
  cases halike with
  | refl => exact ⟨slots, rfl, fun _ _ _ _ => rfl⟩
  | record hslots => exact ⟨_, rfl, hslots⟩

/-! ### Snapshots part by part -/

namespace Image

variable (mask : Mask)

theorem snapshotParts_eq (parts : List (Part Image)) :
    snapshotParts mask parts = parts.filterMap fun p =>
      if mask.exposes p.attributes then p.content.map fun i => (p.name, snapshot mask i)
      else none := by
  induction parts with
  | nil => rfl
  | cons p parts ih =>
      obtain ⟨name, attributes, content⟩ := p
      cases content with
      | none => simp [snapshotParts, ih]
      | some i => by_cases hexposes : mask.exposes attributes <;> simp [snapshotParts, ih, hexposes]

theorem snapshotEntries_eq (key : AtomType) (entries : List (Atom × Option Image)) :
    snapshotEntries mask key entries = entries.filterMap fun e =>
      e.2.map fun i => (e.1.render key, snapshot mask i) := by
  induction entries with
  | nil => rfl
  | cons e entries ih =>
      obtain ⟨a, _ | i⟩ := e <;> simp [snapshotEntries, ih]

theorem snapshotItems_eq (items : List (Option Image)) :
    snapshotItems mask items = items.map fun item =>
      (item.map (snapshot mask)).getD .null := by
  induction items with
  | nil => rfl
  | cons item items ih => cases item <;> simp [snapshotItems, ih]

end Image

/-- Two rows beside one list are sifted alike if they are place by place. -/
theorem filterMap_zip_congr {l : List α} {xs ys : List β} {f f' : α × β → Option γ}
    (hx : xs.length = l.length) (hy : ys.length = l.length)
    (h : ∀ (i : Nat) (a : α) (x y : β), l[i]? = some a → xs[i]? = some x → ys[i]? = some y →
      f (a, x) = f' (a, y)) :
    (l.zip xs).filterMap f = (l.zip ys).filterMap f' := by
  induction l generalizing xs ys with
  | nil => rfl
  | cons a l ih =>
      obtain ⟨x, xs, rfl⟩ := List.exists_cons_of_length_eq_add_one hx
      obtain ⟨y, ys, rfl⟩ := List.exists_cons_of_length_eq_add_one hy
      have hhead : f (a, x) = f' (a, y) := h 0 a x y rfl rfl rfl
      have htail := ih (by simpa using hx) (by simpa using hy) fun i b z w hb hz hw =>
        h (i + 1) b z w hb hz hw
      simp only [List.zip_cons_cons, List.filterMap_cons, hhead, htail]

namespace Heap

/-- Heaps with the same values, which differ at most in slots of fields that are hidden wherever the
record may be shown. -/
structure Resembles (P : Policy) (g h : Heap) : Prop where
  size_eq : g.cells.size = h.cells.size
  typeOf_eq : ∀ r, g.typeOf r = h.typeOf r
  alike : ∀ r, Content.Alike (P.Shows r (g.typeOf r)) (g.typeOf r) (g.contentOf r) (h.contentOf r)

/-- Well-typed heaps that show the same under a policy. -/
structure Kin (P : Policy) (g h : Heap) : Prop extends Resembles P g h where
  left : g.WellTyped
  right : h.WellTyped

variable {g h g' h' : Heap} {τ : HostType} {c c' : Content} {r v key : Ref} {a : Atom}
  {value yield : Option Ref}

theorem WellTyped.kin (hh : h.WellTyped) : Kin P h h :=
  ⟨⟨rfl, fun _ => rfl, fun _ => .refl⟩, hh, hh⟩

namespace Resembles

theorem alloc (hm : Resembles P g h) (x : Cell) :
    Resembles P (g.alloc x).2 (h.alloc x).2 where
  size_eq := by simp [hm.size_eq]
  typeOf_eq s := by
    simp only [typeOf, cell_alloc, hm.size_eq]
    split
    · rfl
    · exact hm.typeOf_eq s
  alike s := by
    simp only [typeOf, contentOf, cell_alloc, hm.size_eq]
    split
    · exact .refl
    · exact hm.alike s

theorem update (hm : Resembles P g h) (hc : Content.Alike (P.Shows r (g.typeOf r)) (g.typeOf r) c c') :
    Resembles P (g.update r c) (h.update r c') where
  size_eq := by simp [hm.size_eq]
  typeOf_eq s := by simp [hm.typeOf_eq s]
  alike s := by
    rw [typeOf_update]
    by_cases hs : s = r ∧ r < g.cells.size
    · obtain ⟨rfl, hr⟩ := hs
      rwa [contentOf_update_self hr, contentOf_update_self (hm.size_eq ▸ hr)]
    · have hs' : ¬ (s = r ∧ r < h.cells.size) := hm.size_eq ▸ hs
      simp only [contentOf, cell_update, if_neg hs, if_neg hs']
      exact hm.alike s

theorem recordParts (hm : Resembles P g h) (r : Ref) :
    Both (fun p q => p.1 = q.1 ∧ p.2.1 = q.2.1 ∧
        (∃ descriptor, g.typeOf r = .record descriptor p.1 p.2.1) ∧
        ∀ (i : Nat) (f : Field HostType), p.2.1[i]? = some f → ¬ Hidden (P.Shows r (g.typeOf r)) f →
          p.2.2[i]? = q.2.2[i]?)
      (g.recordParts r) (h.recordParts r) := by
  have halike := hm.alike r
  simp only [Heap.recordParts, cell_eq, ← hm.typeOf_eq r]
  generalize g.typeOf r = type, g.contentOf r = content, h.contentOf r = content' at halike
  cases halike with
  | refl =>
      split
      next heq =>
        exact ⟨rfl, rfl, ⟨_, (Cell.mk.inj heq).1⟩, fun _ _ _ _ => rfl⟩
      next => rfl
  | record hslots => exact ⟨rfl, rfl, ⟨_, rfl⟩, hslots⟩

theorem tableParts (hm : Resembles P g h) (r : Ref) : g.tableParts r = h.tableParts r := by
  have halike := hm.alike r
  simp only [Heap.tableParts, cell_eq, ← hm.typeOf_eq r]
  generalize g.typeOf r = type, g.contentOf r = content, h.contentOf r = content' at halike
  cases halike with
  | refl => rfl
  | record => rfl

end Resembles

namespace Kin

theorem atomOf (ht : Kin P g h) (key : Ref) : g.atomOf key = h.atomOf key := by
  have halike := ht.alike key
  unfold Heap.atomOf
  rw [ht.typeOf_eq key]
  generalize g.typeOf key = type, g.contentOf key = content, h.contentOf key = content' at halike
  cases halike with
  | refl => rfl
  | record => rfl

theorem keyAtom (ht : Kin P g h) (keyType : AtomType) (key : Ref) :
    g.keyAtom keyType key = h.keyAtom keyType key := by
  unfold Heap.keyAtom
  rw [ht.typeOf_eq key, ht.atomOf key]

theorem checkYield (ht : Kin P g h) (yieldType : Option HostType) (yield : Option Ref) :
    g.checkYield yieldType yield = h.checkYield yieldType yield := by
  cases yieldType <;> cases yield <;> simp only [Heap.checkYield, ht.typeOf_eq]

theorem entryAt? (ht : Kin P g h) (r : Ref) (a : Atom) :
    g.entryAt? r a = h.entryAt? r a := by
  have halike := ht.alike r
  unfold Heap.entryAt?
  generalize g.typeOf r = type, g.contentOf r = content, h.contentOf r = content' at halike
  cases halike with
  | refl => rfl
  | record => rfl

theorem reach (ht : Kin P g h) (r : Ref) : g.reach r = h.reach r := by
  rw [Heap.reach, Heap.reach, ht.size_eq, ht.typeOf_eq]

/-- An exposed field is read alike. -/
theorem field (ht : Kin P g h) {descriptor offset : Nat} {name : String}
    {fields : List (Field HostType)} {f : Field HostType}
    (htype : g.typeOf r = .record descriptor name fields) (hf : fields[offset]? = some f)
    (hshown : ¬ Hidden (P.Shows r (g.typeOf r)) f) : g.field r offset = h.field r offset := by
  have halike := ht.alike r
  have hleft := ht.left.fits r
  simp only [Heap.field, Heap.recordParts, cell_eq, ← ht.typeOf_eq r, htype]
  rw [htype] at halike hleft hshown
  generalize g.contentOf r = content, h.contentOf r = content' at halike hleft
  cases hleft with
  | record hlength _ =>
      cases halike with
      | refl => rfl
      | record hslots => simp [bind, Except.bind, hslots offset f hf hshown]

/-! ### Operations on kin -/

theorem new (ht : Kin P g h) (τ : HostType) (hblank : c.Blank) :
    Both (fun x y => x.1 = y.1 ∧ Kin P x.2 y.2) (g.new τ c) (h.new τ c) := by
  unfold Heap.new
  cases hcheck : checkContent τ c with
  | error fault => rfl
  | ok =>
      exact ⟨ht.size_eq, ht.alloc _, ht.left.alloc (fits_of_checkContent hcheck hblank),
        ht.right.alloc (fits_of_checkContent hcheck hblank)⟩

theorem setField (ht : Kin P g h) {offset : Nat}
    (hvalue : ∀ v, value = some v → v < g.cells.size) :
    Both (Kin P) (g.setField r offset value) (h.setField r offset value) := by
  suffices hmirrors : Both (Resembles P) (g.setField r offset value)
      (h.setField r offset value) by
    refine hmirrors.imp fun g' h' hg hh hm => ⟨hm, ht.left.setField hvalue hg, ?_⟩
    exact ht.right.setField (fun v hv => ht.size_eq ▸ hvalue v hv) hh
  unfold Heap.setField
  refine (ht.recordParts r).bind ?_
  rintro ⟨name, fields, slots⟩ ⟨_, _, slots'⟩ ⟨rfl, rfl, ⟨descriptor, htype⟩, hslots⟩
  have hupdated : Resembles P (g.update r (.record (slots.set offset value)))
      (h.update r (.record (slots'.set offset value))) := by
    refine ht.toResembles.update ?_
    rw [htype] at hslots ⊢
    refine .record fun i f hf hshown => ?_
    simp only [List.getElem?_set', hslots i f hf hshown]
  simp only [← ht.typeOf_eq]
  split
  next => rfl
  next f hf =>
    cases value with
    | some v =>
        simp only
        split
        next => exact hupdated
        next => rfl
    | none =>
        simp only
        split
        next => exact hupdated
        next => rfl

theorem tableAssign (ht : Kin P g h) (hkey : key < g.cells.size)
    (hyield : ∀ v, yield = some v → v < g.cells.size) :
    Both (Kin P) (g.tableAssign r key yield) (h.tableAssign r key yield) := by
  suffices hmirrors : Both (Resembles P) (g.tableAssign r key yield)
      (h.tableAssign r key yield) by
    refine hmirrors.imp fun g' h' hg hh hm => ⟨hm, ht.left.tableAssign hkey hyield hg, ?_⟩
    exact ht.right.tableAssign (ht.size_eq ▸ hkey) (fun v hv => ht.size_eq ▸ hyield v hv) hh
  unfold Heap.tableAssign
  refine .of_eq (ht.tableParts r) fun parts _ => ?_
  obtain ⟨keyType, yieldType, entries⟩ := parts
  refine .of_eq (ht.keyAtom keyType key) fun a _ => ?_
  refine .of_eq (ht.checkYield yieldType yield) fun _ _ => ?_
  exact ht.toResembles.update .refl

theorem tableErase (ht : Kin P g h) :
    Both (fun x y => x.1 = y.1 ∧ Kin P x.2 y.2) (g.tableErase r a) (h.tableErase r a) := by
  suffices hmirrors : Both (fun x y => x.1 = y.1 ∧ Resembles P x.2 y.2) (g.tableErase r a)
      (h.tableErase r a) by
    refine hmirrors.imp fun x y hg hh hm => ⟨hm.1, hm.2, ?_, ?_⟩
    · exact ht.left.tableErase hg
    · exact ht.right.tableErase hh
  unfold Heap.tableErase
  refine .of_eq (ht.tableParts r) fun parts _ => ?_
  exact ⟨rfl, ht.toResembles.update .refl⟩

theorem vectorPush (ht : Kin P g h) (hv : v < g.cells.size) :
    Both (Kin P) (g.vectorPush r v) (h.vectorPush r v) := by
  suffices hmirrors : Both (Resembles P) (g.vectorPush r v) (h.vectorPush r v) by
    refine hmirrors.imp fun g' h' hg hh hm => ⟨hm, ht.left.vectorPush hv hg, ?_⟩
    exact ht.right.vectorPush (ht.size_eq ▸ hv) hh
  have halike := ht.alike r
  have hupdate {c c' : Content} (hc : Content.Alike (P.Shows r (g.typeOf r)) (g.typeOf r) c c') :
      Resembles P (g.update r c) (h.update r c') := ht.toResembles.update hc
  simp only [Heap.vectorPush, cell_eq, ← ht.typeOf_eq]
  generalize g.typeOf r = type, g.contentOf r = content, h.contentOf r = content' at halike hupdate
  cases halike with
  | refl =>
      split
      next =>
        split
        next => exact hupdate .refl
        next => rfl
      next => rfl
  | record => rfl

/-! ### Images of kin -/

/-- A mask shows the same of a value in both heaps, if the value may be shown under it. -/
theorem snapshot_read (ht : Kin P g h)
    (hknown : ∀ s v, P.Knows s → (g.contentOf s).RefersTo v → P.Knows v) {mask : Mask} (n : Nat)
    {r : Ref} (hshows : P.Shows r (g.typeOf r) mask) :
    (Image.read g n r).snapshot mask = (Image.read h n r).snapshot mask := by
  induction n generalizing r with
  | zero => rfl
  | succ n ih =>
      have halike := ht.alike r
      have hleft := ht.left.fits r
      have hright := ht.right.fits r
      -- whatever is held in a place that the mask shows may be shown as well
      have hpart {σ : HostType} (hσ : σ.ShownPart mask (g.typeOf r)) {v : Ref}
          (hv : g.Holds σ v) (hrefers : (g.contentOf r).RefersTo v) :
          (Image.read g n v).snapshot mask = (Image.read h n v).snapshot mask :=
        ih (P.part hshows hσ hv.same (hknown r v (P.knows hshows) hrefers))
      rw [Image.read, Image.read, cell_eq, cell_eq]
      rw [← ht.typeOf_eq r] at hright ⊢
      generalize g.typeOf r = type, g.contentOf r = content, h.contentOf r = content'
        at halike hleft hright hshows hpart
      cases hleft with
      | atom | real =>
          cases halike
          rfl
      | record hlength hholds =>
          obtain ⟨slots', rfl, hslots⟩ := halike.record_inv
          cases hright with
          | record hlength' _ =>
              simp only [Image.snapshot, Image.snapshotParts_eq, List.filterMap_map]
              refine congrArg Plain.object (filterMap_zip_congr hlength hlength' ?_)
              intro i f slot slot' hf hslot hslot'
              simp only [Function.comp_apply]
              split
              next hexposes =>
                -- kin may only differ where the mask does not look
                have heq := hslots i f hf (not_hidden hshows hexposes)
                obtain rfl : slot = slot' := by simpa [hslot, hslot'] using heq
                cases slot with
                | none => rfl
                | some v =>
                    have hv := hpart (.field (List.mem_of_getElem? hf) hexposes)
                      (hholds i f v hf hslot) (List.mem_of_getElem? hslot)
                    simp only [Option.map_some, hv]
              next => rfl
      | @table key yield entries hentries =>
          cases halike
          cases yield with
          | none => simp only [Image.snapshot, List.map_map, Function.comp_def]
          | some σ =>
              simp only [Image.snapshot, Image.snapshotEntries_eq, List.filterMap_map]
              refine congrArg Plain.object (List.filterMap_congr ?_)
              rintro ⟨a, entry⟩ hentry
              obtain ⟨v, hv, hholds⟩ := (hentries a entry hentry).yield.eq_some
              have hrefers := hpart .yield hholds ⟨a, entry, hentry, .inr hv⟩
              simp only [Function.comp_apply, hv, Option.map_some, hrefers]
      | vector hitems =>
          cases halike
          simp only [Image.snapshot, Image.snapshotItems_eq, List.map_map]
          refine congrArg Plain.array (List.map_congr_left fun item hitem => ?_)
          cases item with
          | none => rfl
          | some v =>
              have hv := hpart .element (hitems v hitem) hitem
              simp only [Function.comp_apply, Option.map_some, hv]

theorem snapshot_image (ht : Kin P g h)
    (hknown : ∀ s v, P.Knows s → (g.contentOf s).RefersTo v → P.Knows v) {mask : Mask} {r : Ref}
    (hshows : P.Shows r (g.typeOf r) mask) :
    (Image.of g r).snapshot mask = (Image.of h r).snapshot mask := by
  rw [Image.of, Image.of, ht.reach r]
  exact ht.snapshot_read hknown _ hshows

end Kin

/-! ### Kin under masks -/

/-- Heaps with the same values, which differ at most in the slots of hidden fields. -/
structure Mirrors (masks : Mask → Prop) (g h : Heap) : Prop where
  size_eq : g.cells.size = h.cells.size
  typeOf_eq : ∀ r, g.typeOf r = h.typeOf r
  alike : ∀ r, Content.Alike masks (g.typeOf r) (g.contentOf r) (h.contentOf r)

/-- Well-typed heaps that show the same under the masks. -/
structure Twins (masks : Mask → Prop) (g h : Heap) : Prop extends Mirrors masks g h where
  left : g.WellTyped
  right : h.WellTyped

theorem twins_iff_kin : Twins masks g h ↔ Kin (.ofMasks masks) g h :=
  ⟨fun ht => ⟨⟨ht.size_eq, ht.typeOf_eq, ht.alike⟩, ht.left, ht.right⟩,
    fun hk => ⟨⟨hk.size_eq, hk.typeOf_eq, hk.alike⟩, hk.left, hk.right⟩⟩

end Heap

end HostView
