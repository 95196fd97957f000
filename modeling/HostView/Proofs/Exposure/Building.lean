import HostView.Proofs.Exposure.Decoding
import HostView.Proofs.Host.SameType

/-! # Host values built

A conversion that builds a host value adds it first, then its parts, and puts each part in its place.
Nothing that was there before changes, and neither does a part once it is built.
-/

namespace HostView

namespace Heap

variable {g g' g'' h : Heap} {low low' : Ref} {r s : Ref} {type : HostType} {c c' : HostView.Content}

/-! ### Heaps that grow -/

/-- The second heap has all values of the first, as they were. -/
structure Adds (h h' : Heap) : Prop where
  size_le : h.cells.size ≤ h'.cells.size
  cell_eq : ∀ r < h.cells.size, h'.cell r = h.cell r

theorem Adds.refl (h : Heap) : h.Adds h := ⟨Nat.le_refl _, fun _ _ => rfl⟩

theorem Adds.trans (h : g.Adds g') (h' : g'.Adds g'') : g.Adds g'' where
  size_le := Nat.le_trans h.size_le h'.size_le
  cell_eq r hr := (h'.cell_eq r (Nat.lt_of_lt_of_le hr h.size_le)).trans (h.cell_eq r hr)

theorem adds_alloc (h : Heap) (x : Cell) : h.Adds (h.alloc x).2 where
  size_le := by simp
  cell_eq r hr := by rw [cell_alloc, if_neg (Nat.ne_of_lt hr)]

/-- A new value may go on to change. -/
theorem Adds.update (hadds : h.Adds g) (hs : h.cells.size ≤ s) : h.Adds (g.update s c) where
  size_le := by simpa using hadds.size_le
  cell_eq r hr := by
    have hne : r ≠ s := fun heq => absurd hs (Nat.not_le.mpr (heq ▸ hr))
    rw [cell_update, if_neg fun h => hne h.1, hadds.cell_eq r hr]

/-- Values are added, and of those that are there the ones from a reference on stay as they are. -/
structure KeepsFrom (low : Ref) (g g' : Heap) : Prop where
  size_le : g.cells.size ≤ g'.cells.size
  cell_eq : ∀ x < g.cells.size, low ≤ x → g'.cell x = g.cell x

theorem KeepsFrom.refl (low : Ref) (g : Heap) : KeepsFrom low g g := ⟨Nat.le_refl _, fun _ _ _ => rfl⟩

theorem KeepsFrom.trans (h : KeepsFrom low g g') (h' : KeepsFrom low g' g'') :
    KeepsFrom low g g'' where
  size_le := Nat.le_trans h.size_le h'.size_le
  cell_eq x hx hlow :=
    (h'.cell_eq x (Nat.lt_of_lt_of_le hx h.size_le) hlow).trans (h.cell_eq x hx hlow)

theorem KeepsFrom.mono (h : KeepsFrom low g g') (hlow : low ≤ low') : KeepsFrom low' g g' :=
  ⟨h.size_le, fun x hx hx' => h.cell_eq x hx (Nat.le_trans hlow hx')⟩

theorem Adds.keepsFrom (h : g.Adds g') (low : Ref) : KeepsFrom low g g' :=
  ⟨h.size_le, fun x hx _ => h.cell_eq x hx⟩

theorem keepsFrom_update (hr : r < low) : KeepsFrom low g (g.update r c) where
  size_le := by simp
  cell_eq x _ hlow := by
    have hne : x ≠ r := Nat.ne_of_gt (Nat.lt_of_lt_of_le hr hlow)
    rw [cell_update, if_neg fun h => hne h.1]

theorem cell_alloc_self (x : Cell) : (h.alloc x).2.cell h.cells.size = x := by
  rw [cell_alloc, if_pos rfl]

theorem typeOf_eq {x : Cell} (hcell : h.cell r = x) : h.typeOf r = x.type := by
  rw [typeOf, hcell]

/-- What is known of values from a reference on goes on to hold as long as they stay as they are. -/
def Lasting (known : Ref → Heap → Prop) : Prop :=
  ∀ ⦃low low' : Ref⦄ ⦃g g' : Heap⦄, known low g → g.KeepsFrom low g' → low' ≤ low → known low' g'

/-! ### A value that is being built -/

/-- A value is being built over the heap `g`: it is the first one that `g` lacks, and it has the type
and, so far, the content. -/
structure Building (g : Heap) (type : HostType) (c : HostView.Content) (g' : Heap) : Prop where
  adds : g.Adds g'
  lt : g.cells.size < g'.cells.size
  cell_eq : g'.cell g.cells.size = ⟨type, c⟩

namespace Building

theorem start (g : Heap) (type : HostType) (c : HostView.Content) :
    g.Building type c (g.alloc ⟨type, c⟩).2 :=
  ⟨adds_alloc g _, by simp, cell_alloc_self _⟩

/-- While a part is built the value stays as it is. -/
theorem andAdds (h : g.Building type c g') (hadds : g'.Adds g'') : g.Building type c g'' :=
  ⟨h.adds.trans hadds, Nat.lt_of_lt_of_le h.lt hadds.size_le,
    (hadds.cell_eq _ h.lt).trans h.cell_eq⟩

theorem update (h : g.Building type c g') (c' : HostView.Content) :
    g.Building type c' (g'.update g.cells.size c') where
  adds := h.adds.update (Nat.le_refl _)
  lt := by simpa using h.lt
  cell_eq := by rw [cell_update, if_pos ⟨rfl, h.lt⟩, h.cell_eq]

end Building

theorem vectorPush_eq {element : HostType} {items : List (Option Ref)}
    (hcell : h.cell r = ⟨.vector element, .vector items⟩)
    (hsame : (h.typeOf s).same element = true) :
    h.vectorPush r s = .ok (h.update r (.vector (items ++ [some s]))) := by
  rw [Heap.vectorPush, hcell]
  exact if_pos hsame

theorem setField_eq {descriptor offset : Nat} {name : String} {fields : List (Field HostType)}
    {f : Field HostType} {slots : List (Option Ref)}
    (hcell : h.cell r = ⟨.record descriptor name fields, .record slots⟩) (hf : fields[offset]? = some f)
    (hsame : (h.typeOf s).same f.type = true) :
    h.setField r offset (some s) = .ok (h.update r (.record (slots.set offset (some s)))) := by
  simp [Heap.setField, Heap.recordParts, hcell, hf, hsame, bind, Except.bind]

end Heap

namespace Script

variable {call : Caller} {m m' : Machine} {g g' g'' h : Heap} {o : ObjectId} {r s : Ref} {v : Value}
  {type element : HostType} {c : HostView.Content} {limit n : Nat}

/-! ### Steps -/

theorem allocate_gives {make : Heap → Except HostFault (Ref × Heap)}
    (hmake : make m.heap = .ok (r, g)) :
    Succeeds call m (allocate make) r { m with heap := g } := by
  unfold allocate
  refine .get_bind ?_
  rw [hmake]
  exact .bind (.set _) .pure

theorem complete_gives {change : Heap → Except HostFault Heap} (hchange : change m.heap = .ok g) :
    Succeeds call m (complete change) () { m with heap := g } := by
  unfold complete
  refine .get_bind ?_
  rw [hchange]
  exact .set _

/-- A new value is added to the heap. -/
theorem new_gives (hcheck : Heap.checkContent type c = .ok ()) :
    Succeeds call m (allocate fun h => h.new type c) m.heap.cells.size
      { m with heap := (m.heap.alloc ⟨type, c⟩).2 } := by
  refine allocate_gives ?_
  rw [Heap.new, hcheck]
  rfl

/-- Converts the property of a name to an entry of a table. -/
def convertEntry (o : ObjectId) (table : Ref) (key : AtomType) (yield : HostType) (name : String) :
    Conversion Unit := do
  let a ← inPart (.inKey name) (liftM (key.keyOfName name))
  let k ← newAtom key a
  let item ← readProperty o (.name name)
  let converted ← inPart (.inKey name) (toHost yield item)
  complete fun h => h.tableAssign table k (some converted)

/-! ### What is no host value -/

/-- The prototypes of plain objects and of arrays, which are below a bound, know nothing of the private
symbol. -/
structure Engine.Untagged (e : Engine) (limit : Nat) : Prop where
  absent : ∀ proto, proto = Intrinsic.object ∨ proto = Intrinsic.array →
    e.Passes limit (.symbol .tag) (· = none) limit (some proto)
  limit_le : limit ≤ e.objects.size

theorem Engine.Untagged.keeps {e e' : Engine} (h : e.Untagged limit) (hkeeps : e.Keeps (· < limit) e') :
    e'.Untagged limit :=
  ⟨fun proto hproto => (h.absent proto hproto).keeps hkeeps h.limit_le,
    Nat.le_trans h.limit_le hkeeps.size_le⟩

theorem Machine.Ready.untagged (h : m.Ready limit) : m.toEngine.Untagged limit :=
  ⟨h.intact.untagged, h.limit_le⟩

/-- What is no object is not taken for a host value. -/
theorem unheld_of_object? (hv : v.object? = none) : Unheld call m v := by
  rintro o rfl
  cases hv

/-- Neither is a plain object or an array that lacks the private symbol, as its prototype does. -/
theorem unheld_of_proto {p : ObjectId} (huntagged : m.toEngine.Untagged limit)
    (hwrap : m.wrapOf? o = none) (hproxy : (m.object o).isProxy = false)
    (htag : (m.object o).own? (.symbol .tag) = none) (hproto : (m.object o).proto = some p)
    (hp : p = Intrinsic.object ∨ p = Intrinsic.array) : Unheld call m (.object o) := by
  rintro _ ⟨⟩
  have habsent := huntagged.absent p hp
  rw [← hproto] at habsent
  exact unwrapValue_gives hwrap (getProperty_undefined hproxy htag habsent huntagged.limit_le)

theorem unheld_plainWith {members : List (String × Value)} (huntagged : m.toEngine.Untagged limit)
    (hobject : m.object o = .plainWith members) : Unheld call m (.object o) := by
  refine unheld_of_proto huntagged ?_ ?_ ?_ ?_ (.inl rfl)
  · rw [Machine.wrapOf?, hobject]
    rfl
  · rw [hobject]
    rfl
  · rw [hobject]
    exact Object.own?_plainWith_tag members
  · rw [hobject]
    rfl

theorem unheld_arrayWith {items : List Value} (huntagged : m.toEngine.Untagged limit)
    (hobject : m.object o = .arrayWith items) : Unheld call m (.object o) := by
  refine unheld_of_proto huntagged ?_ ?_ ?_ ?_ (.inr rfl)
  · rw [Machine.wrapOf?, hobject]
    rfl
  · rw [hobject]
    rfl
  · rw [hobject]
    exact Object.own?_arrayWith_tag items
  · rw [hobject]
    rfl

/-! ### Vectors -/

/-- So many items have been converted over `g` and added to a vector, each as it should be. -/
structure Collected (good : Nat → Ref → Ref → Heap → Prop) (g : Heap) (element : HostType) (n : Nat)
    (g' : Heap) (news : List Ref) : Prop where
  building : g.Building (.vector element) (.vector (news.map some)) g'
  length_eq : news.length = n
  items : ∀ (i : Nat) (s : Ref), news[i]? = some s → good i s (g.cells.size + 1) g'

section

variable {good : Nat → Ref → Ref → Heap → Prop} (hgood : ∀ i s, Heap.Lasting (good i s))

theorem Collected.start (good : Nat → Ref → Ref → Heap → Prop) (g : Heap) (element : HostType) :
    Collected good g element 0 (g.alloc ⟨.vector element, .vector []⟩).2 [] where
  building := .start g _ _
  length_eq := rfl
  items i s hs := by cases hs

include hgood

/-- A converted item is added. The items before it stay, since none of them is the vector. -/
theorem Collected.push {news : List Ref} (hg : Collected good g element n g' news)
    (hadds : g'.Adds g'') (hs : good n s g'.cells.size g'') :
    Collected good g element (n + 1)
      (g''.update g.cells.size (.vector (news.map some ++ [some s]))) (news ++ [s]) := by
  have hkeeps : g''.KeepsFrom (g.cells.size + 1)
      (g''.update g.cells.size (.vector (news.map some ++ [some s]))) :=
    Heap.keepsFrom_update (Nat.lt_succ_self _)
  have hnews : (news ++ [s]).map some = news.map some ++ [some s] := by simp
  refine ⟨hnews ▸ (hg.building.andAdds hadds).update _, by simp [hg.length_eq], ?_⟩
  intro i t ht
  -- an item from before, the new item, and none after it
  rcases Nat.lt_trichotomy i n with hi | rfl | hi
  · rw [List.getElem?_append_left (hg.length_eq ▸ hi)] at ht
    exact hgood i t (hg.items i t ht) ((hadds.keepsFrom _).trans hkeeps) (Nat.le_refl _)
  · rw [← hg.length_eq, List.getElem?_concat_length] at ht
    cases ht
    exact hgood _ _ hs (hkeeps.mono hg.building.lt) hg.building.lt
  · rw [List.getElem?_eq_none (by simp [hg.length_eq]; omega)] at ht
    cases ht

/-- A vector is built of the items of an array. -/
theorem vector_gives (element : HostType) {items : List Value} (huntagged : m.toEngine.Untagged limit)
    (hobject : m.object o = .arrayWith items) (hlength : items.length < 2 ^ 31)
    (hsettled : ∀ v ∈ items, v.Settled m.toEngine)
    (hitems : ∀ (i : Nat) (v : Value), items[i]? = some v → ∀ g₁, g.Adds g₁ →
      ∃ s g₂, Succeeds call { m with heap := g₁ } (toHost element v) s { m with heap := g₂ } ∧
        g₁.Adds g₂ ∧ (g₂.typeOf s).same element = true ∧ good i s g₁.cells.size g₂) :
    ∃ g' news, Succeeds call { m with heap := g } (toHost (.vector element) (.object o))
        g.cells.size { m with heap := g' } ∧ Collected good g element items.length g' news := by
  let convert : Nat → Value → Conversion Unit := fun index item => do
    let converted ← inPart (.inElement index) (toHost element item)
    complete fun h => h.vectorPush g.cells.size converted
  -- an item is converted over the heap that the items before it left
  have hround : ∀ (i : Nat) (v : Value), items[i]? = some v →
      ∀ g₁, (∃ news, Collected good g element i g₁ news) →
        ∃ g₂, Succeeds call { m with heap := g₁ } (convert i v) () { m with heap := g₂ } ∧
          ∃ news, Collected good g element (i + 1) g₂ news := by
    rintro i v hv g₁ ⟨news, hg₁⟩
    obtain ⟨s, g₂, hconvert, hadds, hsame, hs⟩ := hitems i v hv g₁ hg₁.building.adds
    have hpush := Heap.vectorPush_eq (hg₁.building.andAdds hadds).cell_eq hsame
    exact ⟨_, .bind (.adapt _ hconvert) (complete_gives hpush), _, hg₁.push hgood hadds hs⟩
  let blank : Machine := { m with heap := (g.alloc ⟨.vector element, .vector []⟩).2 }
  have hblank : blank.object o = .arrayWith items := hobject
  obtain ⟨g', hloop, news, hg'⟩ := forItems_gives _ hblank hlength hsettled
    ⟨[], .start good g element⟩ hround
  refine ⟨g', news, ?_, hg'⟩
  rw [toHost]
  refine heldOr_unheld (unheld_arrayWith (m := { m with heap := g }) huntagged hobject) ?_
  refine .bind (new_gives rfl) ?_
  exact .bind (.routine (arrayOf_gives hobject)) (.bind hloop .pure)

end

/-- The items of an array that is too long for the engine to keep its length as an integer are not
taken. -/
theorem vector_long (element : HostType) {items : List Value}
    (huntagged : m.toEngine.Untagged limit) (hobject : m.object o = .arrayWith items)
    (hlength : 2 ^ 31 ≤ items.length) :
    Succeeds call m (toHost (.vector element) (.object o)) m.heap.cells.size
      { m with heap := (m.heap.alloc ⟨.vector element, .vector []⟩).2 } := by
  rw [toHost]
  refine heldOr_unheld (unheld_arrayWith huntagged hobject) ?_
  refine .bind (new_gives rfl) (.bind (.routine (arrayOf_gives hobject)) ?_)
  exact .bind (forItems_long hobject hlength) .pure

end Script

end HostView
