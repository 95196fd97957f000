import HostView.Proofs.Exposure.Building

/-! # Host values recovered

What stands for a host value is converted back to it. A live record or table is recognized and taken
as it is; a scalar is built again; a vector is built anew from its items, one after the other. The
conversion only adds values to the heap, and the engine stays as it is.
-/

namespace HostView

/-! ### What is recovered -/

namespace Heap

variable {g h : Heap} {limit : Nat} {low : Ref} {r s : Ref}

/-- The second reference is what the first one was in the heap `h`: the very same for a record or
table, and otherwise one to a new value, from `low` on, that cannot be told apart from the old one. -/
inductive Recovers (h : Heap) (low : Ref) (g : Heap) : Ref → Ref → Prop
  | held {r : Ref} (hkind : WrapKind.of (h.typeOf r) ≠ .bare) : Recovers h low g r r
  | atom {r s : Ref} {τ : AtomType} {a b : Atom} (hcell : h.cell r = ⟨.atom τ, .atom a⟩)
      (hlow : low ≤ s) (hlt : s < g.cells.size) (hnew : g.cell s = ⟨.atom τ, .atom b⟩)
      (halike : τ.Alike a b) : Recovers h low g r s
  | real {r s : Ref} {kind : RealKind} {x y : Binary64}
      (hcell : h.cell r = ⟨.real kind, .real kind x⟩) (hlow : low ≤ s) (hlt : s < g.cells.size)
      (hnew : g.cell s = ⟨.real kind, .real kind y⟩) (halike : x.Alike y) : Recovers h low g r s
  | vector {r s : Ref} {element element' : HostType} {refs news : List Ref}
      (hcell : h.cell r = ⟨.vector element, .vector (refs.map some)⟩) (hlow : low ≤ s)
      (hlt : s < g.cells.size) (hnew : g.cell s = ⟨.vector element', .vector (news.map some)⟩)
      (hsame : element.same element' = true) (hlength : news.length = refs.length)
      (hitems : ∀ (i : Nat) (r s : Ref), refs[i]? = some r → news[i]? = some s →
        Recovers h low g r s) : Recovers h low g r s

/-- What is recovered stays so as long as the new values do. -/
theorem Recovers.lasting (h : Heap) (r s : Ref) : Lasting fun low g => h.Recovers low g r s := by
  intro low low' g g' hr hkeeps hlow
  have hnew {x : Ref} (hx : x < g.cells.size) (hx' : low ≤ x) :
      low' ≤ x ∧ x < g'.cells.size ∧ g'.cell x = g.cell x :=
    ⟨Nat.le_trans hlow hx', Nat.lt_of_lt_of_le hx hkeeps.size_le, hkeeps.cell_eq x hx hx'⟩
  induction hr with
  | held hkind => exact .held hkind
  | atom hcell hs hs' hcell' halike =>
      obtain ⟨hlow, hlt, heq⟩ := hnew hs' hs
      exact .atom hcell hlow hlt (heq.trans hcell') halike
  | real hcell hs hs' hcell' halike =>
      obtain ⟨hlow, hlt, heq⟩ := hnew hs' hs
      exact .real hcell hlow hlt (heq.trans hcell') halike
  | vector hcell hs hs' hcell' hsame hlength _ ih =>
      obtain ⟨hlow, hlt, heq⟩ := hnew hs' hs
      exact .vector hcell hlow hlt (heq.trans hcell') hsame hlength ih

/-- A reference that leads nowhere leads to no record and to no table. -/
theorem lt_of_not_bare (hkind : WrapKind.of (h.typeOf r) ≠ .bare) : r < h.cells.size := by
  refine Nat.lt_of_not_le fun hsize => hkind ?_
  rw [typeOf, cell_of_size_le hsize]
  rfl

/-- What is recovered has the structure of what was there. -/
theorem Recovers.same (hr : Recovers h low g r s) (hadds : h.Adds g) :
    (h.typeOf r).same (g.typeOf s) = true := by
  cases hr with
  | held hkind =>
      rw [typeOf, typeOf, hadds.cell_eq r (lt_of_not_bare hkind)]
      exact HostType.same_refl _
  | atom hcell _ _ hnew =>
      rw [typeOf_eq hcell, typeOf_eq hnew]
      exact HostType.same_refl _
  | real hcell _ _ hnew =>
      rw [typeOf_eq hcell, typeOf_eq hnew]
      exact HostType.same_refl _
  | vector hcell _ _ hnew hsame =>
      rw [typeOf_eq hcell, typeOf_eq hnew, HostType.same]
      exact hsame

/-! ### Parts of values -/

theorem WellTyped.admits {τ : AtomType} {a : Atom} (hh : h.WellTyped)
    (hcell : h.cell r = ⟨.atom τ, .atom a⟩) : τ.admits a = true := by
  have hfits := hh.fits r
  rw [typeOf, contentOf, hcell] at hfits
  cases hfits with
  | atom hadmits => exact hadmits

theorem WellTyped.items {element : HostType} {refs : List Ref} (hh : h.WellTyped)
    (hcell : h.cell r = ⟨.vector element, .vector (refs.map some)⟩) :
    ∀ s ∈ refs, (h.typeOf s).same element = true := by
  have hfits := hh.fits r
  rw [typeOf, contentOf, hcell] at hfits
  cases hfits with
  | vector hitems => exact fun s hs => (hitems s (List.mem_map_of_mem hs)).same

theorem Full.made {τ : AtomType} {a : Atom} (hfull : h.Full limit r)
    (hcell : h.cell r = ⟨.atom τ, .atom a⟩) : ∀ s, a = .subnet s → s.Made := by
  rintro s rfl
  cases hfull with
  | vector hcontent =>
      rw [contentOf, hcell] at hcontent
      cases hcontent
  | other _ hsubnet =>
      refine hsubnet s ?_
      rw [contentOf, hcell]

theorem Full.slots {element : HostType} {slots : List (Option Ref)} (hfull : h.Full limit r)
    (hcell : h.cell r = ⟨.vector element, .vector slots⟩) :
    ∃ refs : List Ref, slots = refs.map some := by
  cases hfull with
  | @vector _ refs hcontent hlength hitems =>
      rw [contentOf, hcell] at hcontent
      exact ⟨refs, Content.vector.inj hcontent⟩
  | other hother =>
      refine absurd ?_ (hother slots)
      rw [contentOf, hcell]

theorem Full.items {element : HostType} {refs : List Ref} (hfull : h.Full limit r)
    (hcell : h.cell r = ⟨.vector element, .vector (refs.map some)⟩) :
    refs.length ≤ limit ∧ ∀ s ∈ refs, h.Full limit s := by
  cases hfull with
  | @vector _ refs' hcontent hlength hitems =>
      rw [contentOf, hcell] at hcontent
      obtain rfl : refs = refs' :=
        (List.map_inj_right fun _ _ => Option.some.inj).mp (Content.vector.inj hcontent)
      exact ⟨hlength, hitems⟩
  | other hother =>
      refine absurd ?_ (hother (refs.map some))
      rw [contentOf, hcell]

end Heap

namespace Script

variable {call : Caller} {m m' : Machine} {g g' h : Heap} {low o : ObjectId} {r s : Ref} {v : Value}
  {type : HostType} {c : HostView.Content} {mask : Mask} {limit n : Nat}

/-! ### Recognizing -/

/-- The host value behind a live value is found by asking its handler. -/
theorem unwrapValue_live {target : ObjectId} {w : WrapId} {wrap : Wrap} (hready : m.Ready limit)
    (hobject : m.object o = ⟨.proxy target Intrinsic.bridge, none, true, []⟩)
    (htarget : m.object target = ⟨.wrap w, some Intrinsic.wrap, true, []⟩)
    (hwrap : m.wraps.wrap? w = some wrap) (hvalue : wrap.value = some r) :
    ((unwrapValue o).run (invoke (n + 1))).run m = (some r, m) := by
  have hwrapOf : m.wrapOf? target = some w := by
    rw [Machine.wrapOf?, htarget]
  have hreceiver : m.receiver? target = some ⟨r, wrap.mask, wrap.kind⟩ := by
    rw [Machine.receiver?, hwrapOf]
    simp [hwrap, hvalue]
  have hbehind : m.behind (.object target) = some r := by
    simp [Machine.behind, Value.object?, hwrapOf, hwrap, hvalue]
  rw [← hbehind]
  refine unwrapValue_gives ?_ (getProperty_tag hready.intact hready.limit_le ?_ ?_ ?_ hreceiver)
  · rw [Machine.wrapOf?, hobject]
  · rw [hobject]
  · rw [htarget]
    rfl
  · rw [htarget]
    rfl

/-- Whatever the type, the host value behind an object is taken as it is if it is of that type. -/
theorem toHost_live (h : ((unwrapValue o).run call).run m = (some r, m))
    (htype : (m.heap.typeOf r).same type = true) :
    Succeeds call m (toHost type (.object o)) r m := by
  cases type with
  | atom τ =>
      rw [toHost]
      exact heldOr_held rfl h htype
  | table key yield =>
      cases yield <;>
      · rw [toHost]
        exact heldOr_held rfl h htype
  | _ =>
      rw [toHost]
      exact heldOr_held rfl h htype

/-! ### Converting back -/

/-- A script value is converted back, over every heap that has the values of `h`: to a value of any
type of the same structure. -/
def Returns (call : Caller) (m : Machine) (h : Heap) (v : Value) (r : Ref) : Prop :=
  ∀ type g, (h.typeOf r).same type = true → h.Adds g →
    ∃ s g', Succeeds call { m with heap := g } (toHost type v) s { m with heap := g' } ∧
      g.Adds g' ∧ h.Recovers g.cells.size g' r s

theorem atom_returns {τ : AtomType} {a : Atom} (hcell : h.cell r = ⟨.atom τ, .atom a⟩)
    (hunheld : ∀ g, Unheld call { m with heap := g } v)
    (hdecode : ∀ g, ∃ b, Gives call { m with heap := g } (atomOf τ v) b { m with heap := g } ∧
      τ.admits b = true ∧ τ.Alike a b) : Returns call m h v r := by
  intro type g htype hadds
  obtain ⟨b, hgives, hadmits, halike⟩ := hdecode g
  rw [Heap.typeOf_eq hcell] at htype
  obtain rfl := HostType.eq_atom_of_same (HostType.same_symm htype)
  refine ⟨g.cells.size, (g.alloc ⟨.atom τ, .atom b⟩).2, ?_, Heap.adds_alloc g _, ?_⟩
  · rw [toHost]
    exact heldOr_unheld (hunheld g) (.bind (.routine hgives) (new_gives (Heap.checkContent_atom hadmits)))
  · exact .atom hcell (Nat.le_refl _) (by simp) (Heap.cell_alloc_self _) halike

theorem real_returns {kind : RealKind} {x : Binary64} (hcell : h.cell r = ⟨.real kind, .real kind x⟩) :
    Returns call m h (.ofReal x) r := by
  intro type g htype hadds
  obtain ⟨y, hnumber, halike⟩ := number?_ofReal x
  obtain rfl : type = .real kind := by
    rw [Heap.typeOf_eq hcell] at htype
    cases type <;> simp_all [HostType.same]
  refine ⟨g.cells.size, (g.alloc ⟨.real kind, .real kind y⟩).2, ?_, Heap.adds_alloc g _, ?_⟩
  · rw [toHost, hnumber]
    exact heldOr_unheld (unheld_of_object? (object?_ofReal x)) (new_gives (if_pos rfl))
  · exact .real hcell (Nat.le_refl _) (by simp) (Heap.cell_alloc_self _) halike

theorem live_returns {target : ObjectId} {w : WrapId} {wrap : Wrap} (hready : m.Ready limit)
    (hkind : WrapKind.of (h.typeOf r) ≠ .bare)
    (hobject : m.object o = ⟨.proxy target Intrinsic.bridge, none, true, []⟩)
    (htarget : m.object target = ⟨.wrap w, some Intrinsic.wrap, true, []⟩)
    (hwrap : m.wraps.wrap? w = some wrap) (hvalue : wrap.value = some r) :
    Returns (invoke (n + 1)) m h (.object o) r := by
  intro type g htype hadds
  let m' : Machine := { m with heap := g }
  have hready' : m'.Ready limit := ⟨hready.intact, hready.limit_le, hready.exact⟩
  refine ⟨r, g, ?_, .refl g, .held hkind⟩
  refine toHost_live (m := m') (unwrapValue_live hready' hobject htarget hwrap hvalue) ?_
  have hsame : g.cell r = h.cell r := hadds.cell_eq r (Heap.lt_of_not_bare hkind)
  show ((g.cell r).type).same type = true
  rw [hsame]
  exact htype

/-- A vector is built anew from the array that stands for it. -/
theorem vector_returns {element : HostType} {refs : List Ref} {items : List Value}
    (hready : m.Ready limit)
    (hcell : h.cell r = ⟨.vector element, .vector (refs.map some)⟩)
    (htypes : ∀ s ∈ refs, (h.typeOf s).same element = true)
    (hobject : m.object o = .arrayWith items) (hlength : items.length < 2 ^ 31)
    (hsize : items.length = refs.length) (hsettled : ∀ v ∈ items, v.Settled m.toEngine)
    (hitems : ∀ (i : Nat) (v : Value) (s : Ref), items[i]? = some v → refs[i]? = some s →
      Returns call m h v s) : Returns call m h (.object o) r := by
  intro type g htype hadds
  obtain ⟨element', rfl, hsame⟩ : ∃ element', type = .vector element' ∧
      element.same element' = true := by
    rw [Heap.typeOf_eq hcell] at htype
    cases type <;> simp_all [HostType.same]
  -- a converted item recovers the item that its place stands for, whatever is converted later
  let good (i : Nat) (s low : Ref) (g : Heap) : Prop :=
    ∃ r, refs[i]? = some r ∧ h.Recovers low g r s
  have hgood : ∀ i s, Heap.Lasting (good i s) := by
    rintro i s low low' g g' ⟨r, hr, hs⟩ hkeeps hlow
    exact ⟨r, hr, Heap.Recovers.lasting h r s hs hkeeps hlow⟩
  obtain ⟨g', news, hconvert, hg'⟩ := vector_gives hgood element' hready.untagged hobject hlength
    hsettled fun i v hv g₁ hadds₁ => by
      have hi : i < refs.length := hsize ▸ (List.getElem?_eq_some_iff.mp hv).1
      have hr := List.getElem?_eq_getElem hi
      have hitem := HostType.same_trans (htypes _ (List.getElem_mem hi)) hsame
      have hall := hadds.trans hadds₁
      obtain ⟨s, g₂, hconvert, hadds₂, hs⟩ := hitems i v _ hv hr element' g₁ hitem hall
      have hback := HostType.same_symm (hs.same (hall.trans hadds₂))
      exact ⟨s, g₂, hconvert, hadds₂, HostType.same_trans hback hitem, _, hr, hs⟩
  refine ⟨g.cells.size, g', hconvert, hg'.building.adds, ?_⟩
  refine .vector hcell (Nat.le_refl _) hg'.building.lt hg'.building.cell_eq hsame
    (hg'.length_eq.trans hsize) fun i r' s' hr' hs' => ?_
  obtain ⟨r, hr, hs⟩ := hg'.items i s' hs'
  obtain rfl : r = r' := Option.some.inj (hr.symm.trans hr')
  exact Heap.Recovers.lasting h r s' hs (.refl _ _) (Nat.le_succ _)

/-! ### All values -/

/-- Whatever stands for a host value is converted back to it. -/
theorem represents_returns (hready : m.Ready limit) (hh : h.WellTyped)
    (hfull : h.Full (2 ^ 31 - 1) r) (hv : Represents m h mask low v r) : Returns (invoke (n + 1)) m h v r := by
  induction hv with
  | @atom r τ a v hcell hvalue =>
      have hadmits := hh.admits hcell
      refine atom_returns hcell (fun g => unheld_of_object? (object?_shownAs hvalue)) fun g => ?_
      exact atomOf_shown hadmits (hfull.made hcell) hvalue
  | @port r τ p o hcell hlow hlt hobject =>
      have hadmits := hh.admits hcell
      obtain rfl : τ = .port := by
        cases τ <;> simp_all [AtomType.admits]
      refine atom_returns hcell (fun g => ?_) fun g => ?_
      · exact unheld_plainWith (m := { m with heap := g }) hready.untagged hobject
      · exact ⟨.port p, .bind (portOf_gives hobject) .pure, rfl, rfl⟩
  | real hcell => exact real_returns hcell
  | held hlow hlow' hlt hlt' hkind hobject htarget hwrap =>
      exact live_returns hready hkind hobject htarget hwrap rfl
  | @vector r element slots o items hcell hlow hlt hobject hsize hunset hitems ih =>
      obtain ⟨refs, rfl⟩ := hfull.slots hcell
      rw [List.length_map] at hsize
      have hslot {i : Nat} {s : Ref} (hs : refs[i]? = some s) :
          (refs.map some)[i]? = some (some s) := by
        rw [List.getElem?_map, hs]
        rfl
      have hlength := (hfull.items hcell).1
      refine vector_returns hready hcell (hh.items hcell) hobject (by omega) hsize ?_ ?_
      · intro v hv
        obtain ⟨i, hi, rfl⟩ := List.mem_iff_getElem.mp hv
        have hitem := List.getElem?_eq_getElem hi
        have hr := List.getElem?_eq_getElem (hsize ▸ hi : i < refs.length)
        exact (hitems i _ _ hitem (hslot hr)).settled
      · intro i v s hv hs
        exact ih i v s hv (hslot hs) ((hfull.items hcell).2 s (List.mem_of_getElem? hs))

end Script

end HostView
