import HostView.Proofs.Exposure.RecoveredImages
import HostView.Proofs.Exposure.Rebuilding
import HostView.Proofs.Exposure.Spreads
import HostView.Proofs.Host.Required
import HostView.Proofs.RoundTrip

/-! # Spreading live values

A script that spreads a live record or table to a plain object, and gives that back to the host, makes a
new record or table of it. The records and tables in it are the very same, and the scalars and vectors in
it are equal to those of the first one.
-/

namespace HostView

/-- The required fields are set and the members are full, with scalars that are told by their texts. -/
structure Heap.Copyable (h : Heap) (r : Ref) : Prop where
  complete : h.Complete r
  full : ∀ s, some s ∈ (h.contentOf r).slots → h.Full (2 ^ 31 - 1) s
  variants : ∀ s, some s ∈ (h.contentOf r).slots → (h.typeOf s).VariantsApart

namespace Script

variable {m : Machine} {g h : Heap} {o p target low : ObjectId} {r : Ref} {type : HostType} {limit : Nat}
  {name : String} {members : List (String × Value)}

/-- What is recovered of the values of a heap is made over those that have its values. -/
def Remaking.recovering (h : Heap) : Remaking h where
  suits := h.Adds
  made := h.Recovers
  adds := .trans
  lasting := Heap.Recovers.lasting h
  same hadds hs := hs.same hadds

/-! ### Members converted back -/

section

variable (hready : m.Ready limit) (hh : h.WellTyped) (hordered : h.Ordered) (hr : h.Listable r)
  (hcopyable : h.Copyable r) (hobject : m.object o = .plainWith members)
  (hd : Depicts m h .all low (h.sights .all r) members)

include hready hh hordered hr hcopyable hobject hd

/-- What is found under a name is recovered from the member. -/
theorem property_recovers {v : Ref} (hmem : (name, .value v) ∈ h.sights .all r)
    (htype : (h.typeOf v).same type = true) (n : Nat) :
    (Remaking.recovering h).Property (invoke (n + 1)) m o name type v := by
  obtain ⟨x, hlookup, hx⟩ := hd.lookup (hh.sights_nodup hordered hr.apart) hmem
  have hfull := hcopyable.full v (Heap.slot_of_sight hmem)
  refine ⟨htype, x, Represents.present hx, represents_returns hready hh hfull hx, fun g => ?_⟩
  exact readMember_gives (m := { m with heap := g }) hobject hlookup hx.settled

/-- The members of a plain object make the record again that they were copied from. -/
theorem record_recovers {d : Nat} {record : String} {fields : List (Field HostType)}
    {slots : List (Option Ref)} (hcell : h.cell r = ⟨.record d record fields, .record slots⟩)
    (htype : (h.typeOf r).same type = true) (hadds : h.Adds g) (n : Nat) :
    ∃ s g', Succeeds (invoke (n + 1)) { m with heap := g } (toHost type (.object o)) s
        { m with heap := g' } ∧
      g.Adds g' ∧ h.Remade (h.Recovers g.cells.size g') g.cells.size g' r s := by
  have hfits := hh.fits r
  rw [Heap.typeOf, Heap.contentOf, hcell] at hfits
  cases hfits with
  | record hlength hslots =>
      refine Remaking.record_gives (w := .recovering h) hready.untagged hcell hobject ?_ htype hadds
      refine List.forall₂_iff_zip.mpr ⟨hlength.symm, fun {f slot} hzip => ?_⟩
      obtain ⟨i, hi⟩ := List.mem_iff_getElem?.mp hzip
      obtain ⟨hf, hslot⟩ := List.getElem?_zip_eq_some.mp hi
      have hmem : (f.name, .ofItem slot) ∈ h.sights .all r := by
        rw [Heap.sights, hcell]
        exact List.mem_map.mpr ⟨(f, slot), List.mem_filter.mpr ⟨hzip, Mask.exposes_all _⟩, rfl⟩
      cases slot with
      | none =>
          obtain ⟨x, hlookup, hx⟩ := hd.lookup (hh.sights_nodup hordered hr.apart) hmem
          have hsettled := hx.settled
          obtain rfl : x = .undefined := hx
          refine ⟨hcopyable.complete.optional hcell hf hslot, fun g => ?_⟩
          exact readMember_gives (m := { m with heap := g }) hobject hlookup hsettled
      | some v =>
          exact property_recovers hready hh hordered hr hcopyable hobject hd hmem
            (hslots i f v hf hslot).same n

/-- So do those that were copied from a table, in whatever order they are listed. -/
theorem table_recovers {key : AtomType} {yield : HostType} {entries : Entries Entry}
    (hcell : h.cell r = ⟨.table key (some yield), .table entries⟩)
    (htype : (h.typeOf r).same type = true) (hadds : h.Adds g) (n : Nat) :
    ∃ s g', Succeeds (invoke (n + 1)) { m with heap := g } (toHost type (.object o)) s
        { m with heap := g' } ∧
      g.Adds g' ∧ h.Remade (h.Recovers g.cells.size g') g.cells.size g' r s := by
  have hsights : h.sights .all r = entries.map fun x => (x.1.render key, x.2.sight) := by
    rw [Heap.sights, hcell]
  have hnames : (h.sights .all r).map (·.1) = entries.map fun x => x.1.render key := by
    rw [hsights, List.map_map]
    rfl
  have hnodup := hnames ▸ hh.sights_nodup hordered hr.apart
  refine Remaking.table_gives (w := .recovering h) hready.untagged hcell
    (hordered r entries (congrArg Cell.content hcell)) hobject (hd.names_eq.trans hnames) hnodup
    hd.settled ?_ ?_ htype hadds
  · intro a e hmem
    have hadmits := hh.admits_key (congrArg Cell.type hcell) (congrArg Cell.content hcell) hmem
    have hapart := hr.apart
    rw [Heap.typeOf_eq hcell] at hapart
    exact ⟨hadmits, AtomType.keyOfName_render hadmits hapart.key (hr.keys _ _ _ a e hcell hmem)⟩
  · intro a e hmem
    have hfits := hh.fits r
    rw [Heap.typeOf, Heap.contentOf, hcell] at hfits
    cases hfits with
    | table hentries =>
        obtain ⟨v, hv, hholds⟩ := (hentries a e hmem).yield.eq_some
        have hsight : (a.render key, .value v) ∈ h.sights .all r := by
          rw [hsights]
          exact List.mem_map.mpr ⟨(a, e), hmem, by simp [Entry.sight, hv]⟩
        exact ⟨v, hv,
          property_recovers hready hh hordered hr hcopyable hobject hd hsight hholds.same n⟩

end

/-- A live record or table that is spread and converted back gives a new one that is structurally equal to
it, with the very records and tables that are in it. No value that was there changes. -/
theorem spread_recovers (hp : m.Spreadable limit p target r .all) (hr : m.heap.Copyable r)
    (htype : (m.heap.typeOf r).same type = true) (n : Nat) :
    ∃ o m' s g, Gives (invoke (n + 1)) m (spreadOf (.object p)) (.object o) m' ∧
      Succeeds (invoke (n + 1)) m' (toHost type (.object o)) s { m' with heap := g } ∧
      m.heap.Adds g ∧ m.heap.Remade (m.heap.Recovers m.heap.cells.size g) m.heap.cells.size g r s ∧
      (Image.of m.heap r).Alike (Image.of g s) := by
  have hh := hp.wellTyped
  obtain ⟨o, members, m', hspread, hgrows, hobject, hd⟩ := spreadOf_gives hp n
  have hready := hp.ready.grows hgrows fun _ _ => trivial
  have hadds : m.heap.Adds m'.heap := hgrows.heap ▸ .refl _
  obtain ⟨s, g, hconvert, hadds', hs⟩ : ∃ s g, Succeeds (invoke (n + 1)) m' (toHost type (.object o)) s
      { m' with heap := g } ∧ m'.heap.Adds g ∧
        m.heap.Remade (m.heap.Recovers m'.heap.cells.size g) m'.heap.cells.size g r s := by
    have hcell := m.heap.cell_eq r
    have hfits := hh.fits r
    have hapart := hp.listable.apart
    generalize m.heap.typeOf r = τ, m.heap.contentOf r = content at hcell hfits hapart
    cases hapart with
    | record =>
        cases hfits with
        | record =>
            exact record_recovers hready hh hp.ordered hp.listable hr hobject hd hcell htype hadds n
    | table =>
        cases hfits with
        | table =>
            exact table_recovers hready hh hp.ordered hp.listable hr hobject hd hcell htype hadds n
  rw [hgrows.heap] at hadds' hs
  have hserves : ∀ v w, some v ∈ (m.heap.contentOf r).slots →
      m.heap.Recovers m.heap.cells.size g v w → m.heap.Serves m.heap.cells.size g v w :=
    fun v w hv hvw => .recovered hvw (hr.variants v hv)
  exact ⟨o, m', s, g, hspread, hconvert, hadds', hs,
    hs.alike hh hserves fun _ _ hvw => hvw.cells_alike hh hadds'⟩

/-! ### A card and a table of memos -/

/-- A memo, a card whose fields have names of their own kind, and a table of memos with one entry. -/
def cardHeap : Heap :=
  let memo : HostType := .record 0 "memo" [⟨"text", .atom .string, .none⟩]
  ⟨#[⟨.atom .string, .atom (.string "a")⟩, ⟨memo, .record [some 0]⟩,
    ⟨.vector (.atom .string), .vector [some 0]⟩,
    ⟨.record 1 "card" [⟨"toJSON", .atom .string, .none⟩, ⟨"constructor", memo, .none⟩,
        ⟨"7", .vector (.atom .string), .none⟩, ⟨"note", .atom .string, .optional⟩],
      .record [some 0, some 1, some 2, none]⟩,
    ⟨.atom .string, .atom (.string "__proto__")⟩,
    ⟨.table .string (some memo), .table [(.string "__proto__", ⟨4, some 1⟩)]⟩]⟩

/-- An engine whose handler of live values also lists names and describes properties, where plain objects
have the given properties. -/
def listingEngine (properties : List (Key × Property)) : Engine :=
  let engine := portEngine properties
  let method (t : Trap) : Object := ⟨.function (.trap t) false, none, true, []⟩
  let handler : Object := ⟨.ordinary, some Intrinsic.object, true,
    [(.name "get", .plain (.object 1)), (.name "ownKeys", .plain (.object 12)),
      (.name "getOwnPropertyDescriptor", .plain (.object 13))]⟩
  { engine with
    objects := ((engine.objects.set! Intrinsic.bridge handler).push (method .list)).push
      (method .describe) }

/-- A script has been shown the card and the table. -/
def cardMachine (properties : List (Key × Property)) : Machine :=
  let engine := listingEngine properties
  let wrap (w : WrapId) : Object := ⟨.wrap w, some Intrinsic.wrap, true, []⟩
  let proxy (target : ObjectId) : Object := ⟨.proxy target Intrinsic.bridge, none, true, []⟩
  ⟨{ engine with objects := engine.objects ++ #[wrap 0, proxy 14, wrap 1, proxy 16] },
    { Bridge.start cardHeap with
      wraps := ⟨#[⟨some 3, .all, .record, .live⟩, ⟨some 5, .all, .table, .live⟩], true, 2, 0⟩ }⟩

theorem cardHeap_wellTyped : cardHeap.WellTyped := by decide

theorem cardHeap_ordered : cardHeap.Ordered := by decide

theorem cardMachine_sound (properties : List (Key × Property)) :
    (cardMachine properties).Sound := by
  have hwraps : ∀ wrap ∈ (cardMachine properties).wraps.wraps, ∀ v ∈ wrap.value, v < 6 := by
    simp [cardMachine]
  exact Machine.sound_iff.mpr ⟨cardHeap_wellTyped, hwraps, nofun, IntegerCache.exact_empty⟩

theorem cardMachine_coherent (properties : List (Key × Property)) :
    (cardMachine properties).Coherent := by
  have hdeclares : cardHeap.Declares fun d =>
      if d = 0 then ["text"] else ["toJSON", "constructor", "7", "note"] := by decide
  exact ⟨_, hdeclares, OffsetCache.coherent_empty⟩

theorem listingEngine_bare : (listingEngine []).Bare 14 := ⟨by decide, nofun, rfl, rfl, fun _ _ => rfl, rfl⟩

theorem listingEngine_intact : (listingEngine []).Intact 14 :=
  listingEngine_bare.intact (by decide) nofun rfl ⟨1, false, true, true, true, by decide, rfl, rfl⟩

theorem listingEngine_traversable : (listingEngine []).Traversable 14 where
  clear := listingEngine_bare.clear
  list := ⟨12, false, true, true, true, by decide, rfl, rfl⟩
  describe := ⟨13, false, true, true, true, by decide, rfl, rfl⟩
  getter := listingEngine_bare.free_name (by decide)
  setter := listingEngine_bare.free_name (by decide)

theorem cardHeap_full {s : Ref} (hs : s < 3) : cardHeap.Full (2 ^ 31 - 1) s := by
  have htext : cardHeap.Full (2 ^ 31 - 1) 0 := .other nofun nofun
  match s with
  | 0 => exact htext
  | 1 => exact .other nofun nofun
  | 2 => exact @Heap.Full.vector cardHeap _ 2 [0] rfl (by decide) (by simpa using htext)

theorem cardHeap_slots {r s : Ref} (hr : r = 3 ∨ r = 5) (hs : some s ∈ (cardHeap.contentOf r).slots) :
    s < 3 := by
  have hall : ∀ slot ∈ (cardHeap.contentOf r).slots, slot.all (fun s => decide (s < 3)) = true := by
    rcases hr with rfl | rfl <;> decide
  simpa using hall _ hs

theorem cardHeap_listable {r : Ref} (hr : r = 3 ∨ r = 5) : cardHeap.Listable r where
  apart := by
    rcases hr with rfl | rfl
    · exact .record (by decide)
    · exact .table trivial
  keys := by
    rcases hr with rfl | rfl
    · nofun
    · rintro _ _ _ a e ⟨⟩ hmem s rfl
      cases List.mem_singleton.mp hmem
  parts s hs := (cardHeap_full (cardHeap_slots hr hs)).short (by decide)
  size_lt := by rcases hr with rfl | rfl <;> decide

theorem cardHeap_copyable {r : Ref} (hr : r = 3 ∨ r = 5) : cardHeap.Copyable r where
  complete := by
    refine ⟨by rcases hr with rfl | rfl <;> decide, fun i f hf hrequired => ?_⟩
    rcases hr with rfl | rfl
    · match i with
      | 0 => exact ⟨0, rfl⟩
      | 1 => exact ⟨1, rfl⟩
      | 2 => exact ⟨2, rfl⟩
      | 3 =>
          cases hf
          cases hrequired
      | n + 4 => cases hf
    · cases hf
  full s hs := cardHeap_full (cardHeap_slots hr hs)
  variants s hs := by
    have hlt := cardHeap_slots hr hs
    match s with
    | 0 | 1 | 2 => trivial

theorem cardMachine_spreadable :
    (cardMachine []).Spreadable 14 15 14 3 .all ∧ (cardMachine []).Spreadable 14 17 16 5 .all := by
  have hkeeps : (listingEngine []).Keeps (· < 14) (cardMachine []).toEngine :=
    .trans (.push _) (.trans (.push _) (.trans (.push _) (.push _)))
  have hsize : 14 ≤ (listingEngine []).objects.size := by decide
  have hready : (cardMachine []).Ready 14 :=
    ⟨listingEngine_intact.keeps hkeeps hsize, by decide, IntegerCache.exact_empty⟩
  have htraversable := listingEngine_traversable.keeps listingEngine_intact hkeeps hsize
  constructor
  · exact ⟨hready, htraversable, cardMachine_coherent [], cardHeap_wellTyped, cardHeap_ordered,
      cardHeap_listable (.inl rfl), by decide, by decide, rfl, ⟨by decide, 0, .live, rfl, rfl⟩⟩
  · exact ⟨hready, htraversable, cardMachine_coherent [], cardHeap_wellTyped, cardHeap_ordered,
      cardHeap_listable (.inr rfl), by decide, by decide, rfl, ⟨by decide, 1, .live, rfl, rfl⟩⟩

/-- The card and the table are made again, the one with the memo under the name of a method of all
objects, the other with it under the name that sets prototypes. -/
theorem spread_recovers_card :
    let m := cardMachine []
    m.Spreadable 14 15 14 3 .all ∧ m.Spreadable 14 17 16 5 .all ∧
      cardHeap.Copyable 3 ∧ cardHeap.Copyable 5 ∧
      (∃ o m' s g, Gives (invoke 9) m (spreadOf (.object 15)) (.object o) m' ∧
        Succeeds (invoke 9) m' (toHost (cardHeap.typeOf 3) (.object o)) s { m' with heap := g } ∧
        cardHeap.Adds g ∧ cardHeap.Remade (cardHeap.Recovers 6 g) 6 g 3 s ∧
        (Image.of cardHeap 3).Alike (Image.of g s)) ∧
      ∃ o m' s g, Gives (invoke 9) m (spreadOf (.object 17)) (.object o) m' ∧
        Succeeds (invoke 9) m' (toHost (cardHeap.typeOf 5) (.object o)) s { m' with heap := g } ∧
        cardHeap.Adds g ∧ cardHeap.Remade (cardHeap.Recovers 6 g) 6 g 5 s ∧
        (Image.of cardHeap 5).Alike (Image.of g s) := by
  intro m
  obtain ⟨hcard, htable⟩ := cardMachine_spreadable
  have hcopyable {r : Ref} (hr : r = 3 ∨ r = 5) : cardHeap.Copyable r := cardHeap_copyable hr
  exact ⟨hcard, htable, hcopyable (.inl rfl), hcopyable (.inr rfl),
    spread_recovers hcard (hcopyable (.inl rfl)) (HostType.same_refl _) 8,
    spread_recovers htable (hcopyable (.inr rfl)) (HostType.same_refl _) 8⟩

/-- What plain objects inherit under the name of a getter is taken for one of the description of a
property, so that the card cannot be spread. -/
theorem spread_refused_card :
    let m := cardMachine [(.name "get", .plain (.int 1))]
    let spread : Action Value := liftM (spreadOf (.object 15))
    m.Sound ∧ m.heap.Ordered ∧ m.Coherent ∧ m.heap.Listable 3 ∧ m.heap.Copyable 3 ∧ m.Wraps 14 3 .all ∧
      m.object 15 = ⟨.proxy 14 Intrinsic.bridge, none, true, []⟩ ∧
      (m.act 9 spread).1.mapError Thrown.message = .error "Getter must be a function" ∧
      ∀ v m', ¬ Gives (invoke 9) m (spreadOf (.object 15)) v m' := by
  intro m spread
  have hmessage : (m.act 9 spread).1.mapError Thrown.message = .error "Getter must be a function" := by
    decide +kernel
  refine ⟨cardMachine_sound _, cardHeap_ordered, cardMachine_coherent _, cardHeap_listable (.inl rfl),
    cardHeap_copyable (.inl rfl), ⟨by decide, 0, .live, rfl, rfl⟩, rfl, hmessage, fun v m' hgives => ?_⟩
  have hspread : m.act 9 spread = (.ok v, m') := Succeeds.routine hgives
  rw [hspread] at hmessage
  cases hmessage

end Script

end HostView
