import HostView.Proofs.Exposure.Traps
import Mathlib.Data.List.ReduceOption

/-! # Surfaces of host values

What a script is shown of a value at once: scalars, the items of vectors, and of a record or table only
that there is one. Showing a value makes one wrap for each record or table on the surface, in their order,
and nothing else of the host comes into it: what is shown, and all that is done to the engine for it,
depends on the surface alone.
-/

namespace HostView

/-- What a script is shown of a value at once. -/
inductive Surface where
  | atom (type : AtomType) (a : Atom)
  | real (x : Binary64)
  | live (kind : WrapKind)
  | items (slots : List (Option Surface))
  | invalid

mutual

/-- The surface of an image. -/
def Image.surface : Image → Surface
  | .atom τ a => .atom τ a
  | .real _ x => .real x
  | .record .. => .live .record
  | .table .. => .live .table
  | .vector _ items => .items (surfaceOfItems items)
  | .invalid => .invalid

def Image.surfaceOfItems : List (Option Image) → List (Option Surface)
  | [] => []
  | none :: items => none :: surfaceOfItems items
  | some v :: items => some v.surface :: surfaceOfItems items

end

theorem Image.surfaceOfItems_eq (items : List (Option Image)) :
    surfaceOfItems items = items.map (·.map surface) := by
  induction items with
  | nil => rfl
  | cons item items ih => cases item <;> simp [surfaceOfItems, ih]

mutual

/-- How many records and tables there are on a surface. -/
def Surface.wraps : Surface → Nat
  | .live _ => 1
  | .items slots => wrapsOfSlots slots
  | _ => 0

def Surface.wrapsOfSlots : List (Option Surface) → Nat
  | [] => 0
  | none :: slots => wrapsOfSlots slots
  | some s :: slots => s.wraps + wrapsOfSlots slots

end

theorem Surface.wrapsOfSlots_eq (slots : List (Option Surface)) :
    wrapsOfSlots slots = (slots.reduceOption.map wraps).sum := by
  induction slots with
  | nil => rfl
  | cons slot slots ih => cases slot <;> simp [wrapsOfSlots, ih]

namespace Heap

variable {h : Heap} {r : Ref} {n k : Nat}

/-- The records and tables on the surface of a value, in their order, with the items of vectors followed so
many steps. -/
def outermostWithin (h : Heap) : Nat → Ref → List Ref
  | 0, _ => []
  | n + 1, r =>
    match h.cell r with
    | ⟨.atom _, .atom _⟩ => []
    | ⟨.real _, .real _ _⟩ => []
    | ⟨.vector _, .vector slots⟩ => slots.reduceOption.flatMap (h.outermostWithin n)
    | _ => [r]

/-- The records and tables on the surface of a value. -/
def outermost (h : Heap) (r : Ref) : List Ref := h.outermostWithin (h.reach r) r

/-- What a script is shown at once of a host value. -/
def surface (h : Heap) (r : Ref) : Surface := (Image.of h r).surface

/-- How a value appears, as the items of vectors are followed one step and then so many. -/
inductive Face (h : Heap) (n : Nat) (r : Ref) : Surface → List Ref → Prop
  | atom {τ : AtomType} {a : Atom} (hcell : h.cell r = ⟨.atom τ, .atom a⟩) : Face h n r (.atom τ a) []
  | real {kind : RealKind} {x : Binary64} (hcell : h.cell r = ⟨.real kind, .real kind x⟩) :
      Face h n r (.real x) []
  | record {d : Nat} {name : String} {fields : List (Field HostType)} {slots : List (Option Ref)}
      (hcell : h.cell r = ⟨.record d name fields, .record slots⟩) : Face h n r (.live .record) [r]
  | table {key : AtomType} {yield : Option HostType} {entries : Entries Entry}
      (hcell : h.cell r = ⟨.table key yield, .table entries⟩) : Face h n r (.live .table) [r]
  | vector {element : HostType} {slots : List (Option Ref)}
      (hcell : h.cell r = ⟨.vector element, .vector slots⟩)
      (hdepth : ∀ s ∈ slots.reduceOption, (h.typeOf s).depth ≤ n) :
      Face h n r (.items (slots.map (·.map fun s => (Image.read h n s).surface)))
        (slots.reduceOption.flatMap (h.outermostWithin n))

/-- Every value of a well-typed heap appears in one of these ways. -/
theorem WellTyped.face (hh : h.WellTyped) (hdepth : (h.typeOf r).depth ≤ n + 1) :
    h.Face n r (Image.read h (n + 1) r).surface (h.outermostWithin (n + 1) r) := by
  have hfits := hh.fits r
  have hcell := h.cell_eq r
  rw [Image.read, outermostWithin]
  generalize htype : h.typeOf r = type, hcontent : h.contentOf r = content at hfits hcell
  rw [hcell]
  cases hfits with
  | atom hadmits => exact .atom hcell
  | real => exact .real hcell
  | record => exact .record hcell
  | table => exact .table hcell
  | @vector element slots hitems =>
      dsimp only
      rw [Image.surface, Image.surfaceOfItems_eq, List.map_map]
      have hmaps : (fun slot : Option Ref => (slot.map (Image.read h n)).map Image.surface) =
          fun slot => slot.map fun s => (Image.read h n s).surface :=
        funext fun slot => Option.map_map ..
      simp only [Function.comp_def]
      rw [hmaps]
      refine .vector hcell fun s hs => ?_
      have hs' : some s ∈ slots := by simpa [List.reduceOption] using hs
      have hsame := HostType.depth_eq_of_same (hitems s hs').same
      rw [htype, HostType.depth] at hdepth
      omega

/-- How far the items of vectors are followed does not matter, as long as it is far enough. -/
theorem WellTyped.outermostWithin_eq (hh : h.WellTyped) (hn : (h.typeOf r).depth ≤ n)
    (hk : (h.typeOf r).depth ≤ k) : h.outermostWithin n r = h.outermostWithin k r := by
  induction n generalizing r k with
  | zero => exact absurd hn (Nat.not_le.mpr (HostType.depth_pos _))
  | succ n ih =>
      cases k with
      | zero => exact absurd hk (Nat.not_le.mpr (HostType.depth_pos _))
      | succ k =>
          have hface := hh.face hn
          have hface' := hh.face hk
          generalize (Image.read h (n + 1) r).surface = s, h.outermostWithin (n + 1) r = refs at hface
          generalize (Image.read h (k + 1) r).surface = s', h.outermostWithin (k + 1) r = refs' at hface'
          cases hface with
          | vector hcell hdepth =>
              cases hface' with
              | vector hcell' hdepth' =>
                  cases hcell.symm.trans hcell'
                  exact List.flatMap_congr fun s hs => ih (hdepth s hs) (hdepth' s hs)
              | _ hcell' => cases hcell.symm.trans hcell'
          | _ hcell => cases hface' with | _ hcell' => cases hcell.symm.trans hcell' <;> rfl

theorem WellTyped.length_outermost (hh : h.WellTyped) (hn : (h.typeOf r).depth ≤ n) :
    (h.outermostWithin n r).length = (Image.read h n r).surface.wraps := by
  induction n generalizing r with
  | zero => rfl
  | succ n ih =>
      have hface := hh.face hn
      generalize (Image.read h (n + 1) r).surface = s, h.outermostWithin (n + 1) r = refs at hface
      cases hface with
      | @vector _ slots _ hdepth =>
          rw [Surface.wraps, Surface.wrapsOfSlots_eq, List.length_flatMap, List.reduceOption_map,
            List.map_map]
          congr 1
          exact List.map_congr_left fun s hs => ih (hdepth s hs)
      | _ => rfl

end Heap

/-- The records and tables on the surface of what is found. -/
def Sight.outermost (h : Heap) : Sight → List Ref
  | .value r => h.outermost r
  | .present | .unset => []

namespace Ledger

variable {l : Ledger} {h : Heap} {mask : Mask} {r : Ref} {refs : List Ref}

/-- The ledger with one more wrap, of a value, that is constructed and attached. -/
def enter (l : Ledger) (h : Heap) (mask : Mask) (r : Ref) : Ledger :=
  (l.construct r mask (WrapKind.of (h.typeOf r))).2.attach l.wraps.size

/-- The ledger with one more wrap for each of the values. -/
def enroll (l : Ledger) (h : Heap) (mask : Mask) (refs : List Ref) : Ledger :=
  refs.foldl (·.enter h mask ·) l

theorem enroll_cons : l.enroll h mask (r :: refs) = (l.enter h mask r).enroll h mask refs := rfl

theorem enroll_append (first second : List Ref) :
    l.enroll h mask (first ++ second) = (l.enroll h mask first).enroll h mask second :=
  List.foldl_append

/-- The new wrap is the last one, and live. -/
theorem enter_eq : l.enter h mask r =
    { l with
      wraps := l.wraps.push ⟨some r, mask, WrapKind.of (h.typeOf r), .live⟩
      created := if l.attached then l.created + 1 else l.created } := by
  have hmodify (wrap : Wrap) (f : Wrap → Wrap) :
      (l.wraps.push wrap).modify l.wraps.size f = l.wraps.push (f wrap) := by
    refine Array.ext (by simp) fun i hi _ => ?_
    rw [Array.size_modify, Array.size_push] at hi
    rw [Array.getElem_modify, Array.getElem_push, Array.getElem_push]
    split <;> split <;> first | rfl | omega
  simp only [enter, construct, attach, Array.getElem?_push_size, hmodify]
  rfl

/-- There is one more wrap for each of the values. -/
theorem size_enroll : (l.enroll h mask refs).wraps.size = l.wraps.size + refs.length := by
  induction refs generalizing l with
  | nil => rfl
  | cons r refs ih =>
      rw [enroll_cons, ih, enter_eq, Array.size_push, List.length_cons]
      omega

/-- Each of them is counted, as long as the bridge exists. -/
theorem created_enroll : (l.enroll h mask refs).created =
    if l.attached then l.created + refs.length else l.created := by
  induction refs generalizing l with
  | nil => simp [enroll]
  | cons r refs ih =>
      rw [enroll_cons, ih, enter_eq, List.length_cons]
      dsimp only
      split
      · omega
      · rfl

/-- A host value is held as many times more as it is among the values. -/
theorem holders_enroll (value : Ref) :
    (l.enroll h mask refs).holders value = l.holders value + refs.count value := by
  induction refs generalizing l with
  | nil => rfl
  | cons r refs ih =>
      rw [enroll_cons, ih, enter_eq, List.count_cons]
      simp only [holders, Array.countP_push, Option.some.injEq, decide_eq_true_eq, beq_iff_eq]
      omega

/-- The wraps are those of the first ledger, with a new live wrap for each of the values in their order. -/
structure Enrolls (l : Ledger) (h : Heap) (mask : Mask) (refs : List Ref) (l' : Ledger) : Prop where
  eq : l' = l.enroll h mask refs
  size : l'.wraps.size = l.wraps.size + refs.length
  created : l.attached = true → l'.created = l.created + refs.length
  holders : ∀ value, l'.holders value = l.holders value + refs.count value

theorem enrolls_enroll : l.Enrolls h mask refs (l.enroll h mask refs) :=
  ⟨rfl, size_enroll, fun hattached => created_enroll.trans (if_pos hattached), holders_enroll⟩

end Ledger

namespace Script

variable {call : Caller} {m : Machine} {b : Bridge} {e e' e₁ : Engine} {o : ObjectId} {k : Key} {v : Value}
  {limit n : Nat} {mask : Mask} {r : Ref}

/-! ### Arrays that are filled -/

/-- Nothing on the prototypes gets in the way of a port that is shown, or of the items of a vector. -/
structure Engine.Fills (e : Engine) (limit : Nat) : Prop where
  number : e.Passes limit (.name "port") Property.Open limit (some Intrinsic.object)
  protocol : e.Passes limit (.name "proto") Property.Open limit (some Intrinsic.object)
  items : ∀ i, e.Passes limit (.item i) Property.Open limit (some Intrinsic.array)

theorem Engine.Fills.keeps (h : e.Fills limit) (hkeeps : e.Keeps (· < limit) e')
    (hlimit : limit ≤ e.objects.size) : e'.Fills limit :=
  ⟨h.number.keeps hkeeps hlimit, h.protocol.keeps hkeeps hlimit, fun i =>
    (h.items i).keeps hkeeps hlimit⟩

theorem Engine.Intact.fills (h : e.Intact limit) : e.Fills limit := ⟨h.number, h.protocol, h.items⟩

theorem Engine.Clear.fills (h : e.Clear limit) : e.Fills limit :=
  ⟨h.members _ (by decide), h.members _ (by decide), h.items⟩

namespace Object

/-- At most the length of an array changes when it gets one more property. -/
theorem kind_adding (x : Object) (k : Key) (v : Value) : (x.adding k v).kind = x.kind ∨
    ∃ length length', x.kind = .array length false ∧ (x.adding k v).kind = .array length' false := by
  unfold adding
  dsimp only
  split
  next length i hkind _ => exact .inr ⟨length, _, hkind, rfl⟩
  next => exact .inl rfl

theorem Takes.adding {x : Object} (h : x.Takes) : (x.adding k v).Takes := by
  obtain hkind | ⟨length, length', -, hkind⟩ := x.kind_adding k v
  · refine ⟨?_, ?_, h.extensible, ?_⟩
    · rw [Settled, hkind]
      exact h.settled
    · rw [isProxy, hkind]
      exact h.proxy
    · rw [hkind]
      exact h.grows
  · refine ⟨?_, ?_, h.extensible, ?_⟩
    · rw [Settled, hkind]
      intro owner hunmade
      cases hunmade
    · rw [isProxy, hkind]
    · rw [hkind]
      intro length hfixed
      cases hfixed

/-- An item leaves room for the others. -/
theorem own?_adding_item {x : Object} {i j : Nat} (hx : x.own? (.item j) = none) (hne : j ≠ i) :
    (x.adding (.item i) v).own? (.item j) = none := by
  obtain ⟨hinherent, hfind⟩ := find?_of_own? hx
  have hinherent' : (x.adding (.item i) v).inherent? (.item j) = none := by
    obtain hkind | ⟨length, length', -, hkind⟩ := x.kind_adding (.item i) v
    · rw [inherent?, hkind]
      exact hinherent
    · rw [inherent?, hkind]
      exact if_neg (Key.item_ne_length j)
  have hkey : (Key.item j == Key.item i) = false :=
    beq_eq_false_iff_ne.mpr fun heq => hne (Key.item_injective heq)
  have hfind' : (x.adding (.item i) v).find? (.item j) = none := by
    rw [find?, adding, List.lookup_append]
    rw [find?] at hfind
    rw [hfind, Option.none_or, List.lookup_cons, hkey]
    rfl
  rw [own?, hinherent', hfind']
  rfl

end Object

/-- A new array has room for items from an index on, however many they are. -/
structure Engine.Filling (e : Engine) (o : ObjectId) (n : Nat) : Prop where
  lt : o < e.objects.size
  takes : (e.object o).Takes
  proto : (e.object o).proto = some Intrinsic.array
  free : ∀ i, n ≤ i → (e.object o).own? (.item i) = none

theorem Engine.filling_new (e : Engine) :
    Engine.Filling { e with objects := e.objects.push (.arrayWith []) } e.objects.size 0 := by
  refine ⟨by simp, ?_, ?_, fun i _ => ?_⟩ <;> rw [Engine.object_push_size]
  · exact Object.arrayWith_takes []
  · rfl
  · rw [Object.own?_arrayWith_item]
    rfl

theorem Engine.Filling.keeps (h : e.Filling o n) (hkeeps : e.Keeps (fun _ => True) e') :
    e'.Filling o n := by
  have hobject := hkeeps.object_eq o h.lt trivial h.takes.settled
  exact ⟨Nat.lt_of_lt_of_le h.lt hkeeps.size_le, hobject ▸ h.takes, hobject ▸ h.proto,
    fun i hi => hobject ▸ h.free i hi⟩

/-- An item is added where there is room. -/
theorem Engine.Filling.add (h : e.Filling o n) (hfills : e.Fills limit) (hlimit : limit ≤ o)
    (v : Value) :
    ∃ e', e.Runs (setProperty o (.item n) v) () e' ∧ e.Keeps (· ≠ o) e' ∧ e'.Filling o (n + 1) := by
  have hsize : limit ≤ e.objects.size := Nat.le_trans hlimit (Nat.le_of_lt h.lt)
  obtain ⟨e', hset, hadds⟩ := setProperty_runs (v := v) h.lt h.takes (h.free n (Nat.le_refl n))
    (by rw [h.proto]; exact (hfills.items n).letsBy hlimit hsize) hsize
  refine ⟨e', hset, hadds.keeps, Nat.lt_of_lt_of_le h.lt hadds.keeps.size_le, ?_, ?_, fun i hi => ?_⟩ <;>
    rw [hadds.object_eq]
  · exact h.takes.adding
  · exact h.proto
  · exact Object.own?_adding_item (h.free i (Nat.le_of_lt hi)) (Nat.ne_of_gt hi)

/-! ### Showing what is on the surface -/

/-- What comes into the showing of a value besides its surface: the engine, the number of wraps that were
made, and the integers that are kept. -/
structure Footing where
  engine : Engine
  wraps : Nat
  integers : IntegerCache

/-- The footing on which the machine is. -/
def Machine.footing (m : Machine) : Footing := ⟨m.toEngine, m.wraps.wraps.size, m.integers⟩

/-- The machine on another footing, with one more wrap for each of the values. -/
def Machine.enrolled (m : Machine) (x : Footing) (mask : Mask) (refs : List Ref) : Machine :=
  ⟨x.engine, { m.toBridge with wraps := m.wraps.enroll m.heap mask refs, integers := x.integers }⟩

theorem Machine.footing_enrolled {x : Footing} {refs : List Ref}
    (hwraps : x.wraps = m.footing.wraps + refs.length) : (m.enrolled x mask refs).footing = x := by
  obtain ⟨engine, wraps, integers⟩ := x
  rw [Machine.footing, Machine.enrolled, Ledger.size_enroll]
  exact congrArg (Footing.mk engine · integers) hwraps.symm

/-- On the footing, whatever has the surface is shown as the value, which leads to another footing. Wraps are
made of the records and tables on the surface. -/
def Displays (s : Surface) (x : Footing) (v : Value) (x' : Footing) : Prop :=
  ∀ (call : Caller) (m : Machine) (mask : Mask) (n : Nat) (r : Ref), m.footing = x →
    m.heap.WellTyped → (m.heap.typeOf r).depth ≤ n → (Image.read m.heap n r).surface = s →
      Succeeds call m (wrapWithin mask n r) v (m.enrolled x' mask (m.heap.outermostWithin n r))

/-- The footing turns into another one after so many wraps. Objects stay as they are that satisfy `P`. -/
structure Footing.Leads (P : ObjectId → Prop) (x : Footing) (wraps : Nat) (x' : Footing) : Prop where
  keeps : x.engine.Keeps P x'.engine
  wraps_eq : x'.wraps = x.wraps + wraps

variable {x x' : Footing}

/-- It is enough to look at the ways in which a value appears. -/
theorem displays_of_face {s : Surface}
    (h : ∀ (call : Caller) (m : Machine) (mask : Mask) (n : Nat) (r : Ref) (refs : List Ref),
      m.footing = x → m.heap.WellTyped → m.heap.Face n r s refs →
        Succeeds call m (wrapWithin mask (n + 1) r) v (m.enrolled x' mask refs)) :
    Displays s x v x' := by
  intro call m mask n r hm hh hdepth hs
  cases n with
  | zero => exact absurd hdepth (Nat.not_le.mpr (HostType.depth_pos _))
  | succ n => exact h call m mask n r _ hm hh (hs ▸ hh.face hdepth)

theorem atom_displays (hfills : x.engine.Fills limit) (hlimit : limit ≤ x.engine.objects.size)
    (τ : AtomType) (a : Atom) :
    ∃ v x', x.Leads (fun _ => True) 0 x' ∧ Displays (.atom τ a) x v x' := by
  have hpure (v : Value) (hv : atomValue τ a = pure v) : ∃ v x', x.Leads (fun _ => True) 0 x' ∧
      ∀ (call : Caller) (m : Machine) (mask : Mask), m.footing = x →
        Succeeds call m (atomValue τ a) v (m.enrolled x' mask []) := by
    refine ⟨v, x, ⟨.refl _, rfl⟩, fun call m mask hm => ?_⟩
    subst hm
    rw [hv]
    exact .pure
  have hshown : ∃ v x', x.Leads (fun _ => True) 0 x' ∧ ∀ (call : Caller) (m : Machine) (mask : Mask),
      m.footing = x → Succeeds call m (atomValue τ a) v (m.enrolled x' mask []) := by
    cases a with
    | count c =>
        refine ⟨.bigInt (x.integers.get c).1.value, { x with integers := (x.integers.get c).2 },
          ⟨.refl _, rfl⟩, fun call m mask hm => ?_⟩
        subst hm
        exact .modifyGet _
    | port p =>
        obtain ⟨e', hruns, hmade⟩ := portValue_runs hfills.number hfills.protocol hlimit p
        refine ⟨.object x.engine.objects.size, { x with engine := e' }, ⟨hmade.keeps, rfl⟩,
          fun call m mask hm => ?_⟩
        subst hm
        exact .routine (hruns call m.toBridge)
    | _ => exact hpure _ rfl
  obtain ⟨v, x', hleads, hatom⟩ := hshown
  refine ⟨v, x', hleads, displays_of_face fun call m mask n r refs hm hh hface => ?_⟩
  cases hface with
  | atom hcell =>
      rw [wrapWithin]
      refine .get_bind ?_
      rw [hcell]
      exact hatom call m mask hm

theorem real_displays (r : Binary64) : Displays (.real r) x (.ofReal r) x := by
  refine displays_of_face fun call m mask n r refs hm hh hface => ?_
  cases hface with
  | real hcell =>
      subst hm
      rw [wrapWithin]
      refine .get_bind ?_
      rw [hcell]
      exact .pure

/-- A record or table is wrapped, and not looked at. -/
theorem live_displays (kind : WrapKind) :
    ∃ v x', x.Leads (fun _ => True) 1 x' ∧ Displays (.live kind) x v x' := by
  refine ⟨.object (x.engine.objects.size + 1),
    ⟨x.engine.withLive x.wraps, x.wraps + 1, x.integers⟩, ⟨x.engine.keeps_withLive _, rfl⟩,
    displays_of_face fun call m mask n r refs hm hh hface => ?_⟩
  subst hm
  cases hface with
  | record hcell | table hcell =>
      have hkind : WrapKind.of (m.heap.typeOf r) ≠ .bare := by
        rw [Heap.typeOf, hcell]
        intro hbare
        cases hbare
      rw [wrapWithin]
      refine .get_bind ?_
      rw [hcell]
      exact wrapObject_gives call mask hkind

/-- What fills an array from an index on, one slot after the other. -/
def fillSlots (mask : Mask) (n : Nat) (o : ObjectId) (index : Nat) (slots : List (Option Ref)) :
    Action Unit :=
  (slots.zipIdx index).forM fun (item, index) => do
    let v ←
      match item with
      | some v => wrapWithin mask n v
      | none => pure .undefined
    setProperty o (.item index) v

theorem Machine.enrolled_append {refs refs' : List Ref} {engine : Engine} :
    Machine.enrolled ⟨engine, (m.enrolled x mask refs).toBridge⟩ x' mask refs' =
      m.enrolled x' mask (refs ++ refs') := by
  simp only [Machine.enrolled, Ledger.enroll_append]

mutual

/-- Every surface is displayed, on every footing. -/
theorem surface_displays : ∀ (s : Surface) (x : Footing), x.engine.Fills limit →
    limit ≤ x.engine.objects.size →
      ∃ v x', x.Leads (fun _ => True) s.wraps x' ∧ Displays s x v x'
  | .atom τ a, x, hfills, hlimit => atom_displays hfills hlimit τ a
  | .real y, x, _, _ => ⟨_, x, ⟨.refl _, rfl⟩, real_displays y⟩
  | .live kind, x, _, _ => live_displays kind
  | .invalid, x, _, _ =>
      ⟨.undefined, x, ⟨.refl _, rfl⟩, displays_of_face fun _ _ _ _ _ _ _ _ hface => nomatch hface⟩
  | .items slots, x, hfills, hlimit => by
      have hblank : x.engine.Keeps (fun _ => True) _ := .push (.arrayWith [])
      obtain ⟨x', hleads, hfill⟩ := slots_display slots { x with engine := _ } x.engine.objects.size 0
        (hfills.keeps (hblank.mono fun _ _ _ => trivial) hlimit) hlimit x.engine.filling_new
      refine ⟨.object x.engine.objects.size, x',
        ⟨hblank.andNew hleads.keeps (Nat.le_refl _), hleads.wraps_eq⟩,
        displays_of_face fun call m mask n r refs hm hh hface => ?_⟩
      subst hm
      cases hface with
      | vector hcell hdepth =>
          rw [wrapWithin]
          refine .get_bind ?_
          rw [hcell]
          exact .bind (.routine (newArray_runs call m.toBridge))
            (.bind (hfill call ⟨_, m.toBridge⟩ mask n _ rfl hh hdepth rfl) .pure)

/-- So is what fills an array. -/
theorem slots_display : ∀ (slots : List (Option Surface)) (x : Footing) (o n : Nat),
    x.engine.Fills limit → limit ≤ o → x.engine.Filling o n →
      ∃ x', x.Leads (· ≠ o) (Surface.wrapsOfSlots slots) x' ∧
        ∀ (call : Caller) (m : Machine) (mask : Mask) (depth : Nat) (refs : List (Option Ref)),
          m.footing = x → m.heap.WellTyped → (∀ r ∈ refs.reduceOption, (m.heap.typeOf r).depth ≤ depth) →
          refs.map (·.map fun r => (Image.read m.heap depth r).surface) = slots →
          Succeeds call m (fillSlots mask depth o n refs) ()
            (m.enrolled x' mask (refs.reduceOption.flatMap (m.heap.outermostWithin depth)))
  | [], x, o, n, _, _, _ => by
      refine ⟨x, ⟨.refl _, rfl⟩, fun call m mask depth refs hm hh hdepth hslots => ?_⟩
      obtain rfl := List.map_eq_nil_iff.mp hslots
      subst hm
      exact .pure
  | none :: slots, x, o, n, hfills, hlimit, hfilling => by
      obtain ⟨e₁, hset, hkeeps, hfilling₁⟩ := hfilling.add hfills hlimit .undefined
      have hsize : limit ≤ x.engine.objects.size := Nat.le_trans hlimit (Nat.le_of_lt hfilling.lt)
      obtain ⟨x', hleads, hrest⟩ := slots_display slots { x with engine := e₁ } o (n + 1)
        (hfills.keeps (hkeeps.mono fun y _ hy => ne_of_limit_le hlimit y hy) hsize) hlimit hfilling₁
      refine ⟨x', ⟨hkeeps.trans hleads.keeps, hleads.wraps_eq⟩,
        fun call m mask depth refs hm hh hdepth hslots => ?_⟩
      obtain ⟨item, refs, rfl, hitem, hslots'⟩ := List.map_eq_cons_iff.mp hslots
      obtain rfl := Option.map_eq_none_iff.mp hitem
      subst hm
      exact .bind (.bind .pure (.routine (hset call m.toBridge)))
        (hrest call ⟨e₁, m.toBridge⟩ mask depth refs rfl hh hdepth hslots')
  | some s :: slots, x, o, n, hfills, hlimit, hfilling => by
      have hsize : limit ≤ x.engine.objects.size := Nat.le_trans hlimit (Nat.le_of_lt hfilling.lt)
      obtain ⟨v, x₁, hleads₁, hdisplays⟩ := surface_displays s x hfills hsize
      obtain ⟨e₂, hset, hkeeps, hfilling₂⟩ := (hfilling.keeps hleads₁.keeps).add
        (hfills.keeps (hleads₁.keeps.mono fun _ _ _ => trivial) hsize) hlimit v
      have hkeeps₂ : x.engine.Keeps (· ≠ o) e₂ := (hleads₁.keeps.mono fun _ _ _ => trivial).trans hkeeps
      obtain ⟨x', hleads, hrest⟩ := slots_display slots { x₁ with engine := e₂ } o (n + 1)
        (hfills.keeps (hkeeps₂.mono fun y _ hy => ne_of_limit_le hlimit y hy) hsize) hlimit hfilling₂
      refine ⟨x', ⟨hkeeps₂.trans hleads.keeps, ?_⟩,
        fun call m mask depth refs hm hh hdepth hslots => ?_⟩
      · rw [hleads.wraps_eq, hleads₁.wraps_eq, Surface.wrapsOfSlots, Nat.add_assoc]
      obtain ⟨item, refs, rfl, hitem, hslots'⟩ := List.map_eq_cons_iff.mp hslots
      obtain ⟨r, rfl, hr⟩ := Option.map_eq_some_iff.mp hitem
      obtain ⟨hfirst, hdepth'⟩ := List.forall_mem_cons.mp hdepth
      have hshow := hdisplays call m mask depth r hm hh hfirst hr
      -- the item is shown and assigned, and then the others are
      have hfooting : (m.enrolled { x₁ with engine := e₂ } mask
          (m.heap.outermostWithin depth r)).footing = { x₁ with engine := e₂ } := by
        refine Machine.footing_enrolled ?_
        rw [hh.length_outermost hfirst, hr, hm]
        exact hleads₁.wraps_eq
      have hothers := hrest call _ mask depth refs hfooting hh hdepth' hslots'
      rw [Machine.enrolled_append] at hothers
      exact .bind (.bind hshow (.routine (hset call _))) hothers

end

/-! ### Answers of live values -/

/-- On the footing, every value with the surface is shown in the same way. -/
theorem Displays.wrapValue {s : Surface} (h : Displays s x v x') (hm : m.footing = x)
    (hh : m.heap.WellTyped) (hs : m.heap.surface r = s) :
    Succeeds call m (wrapValue mask r) v (m.enrolled x' mask (m.heap.outermost r)) :=
  .get_bind (h call m mask _ r hm hh (Nat.le_add_left _ _) hs)

theorem enrolls_enrolled {refs : List Ref} :
    m.wraps.Enrolls m.heap mask refs (m.enrolled x mask refs).wraps :=
  Ledger.enrolls_enroll

/-- What is found is shown with a wrap for each record or table on its surface. -/
theorem showSight_enrolls (hh : m.heap.WellTyped) (hfills : m.Fills limit)
    (hlimit : limit ≤ m.objects.size) (call : Caller) (mask : Mask) (s : Sight) :
    ∃ v m', Succeeds call m (showSight mask s) v m' ∧
      m.toEngine.Keeps (fun _ => True) m'.toEngine ∧
      m.wraps.Enrolls m.heap mask (s.outermost m.heap) m'.wraps := by
  cases s with
  | value r =>
      obtain ⟨v, x', hleads, hdisplays⟩ := surface_displays (m.heap.surface r) m.footing hfills hlimit
      exact ⟨v, _, hdisplays.wrapValue rfl hh rfl, hleads.keeps, enrolls_enrolled⟩
  | present => exact ⟨.bool true, m, .pure, .refl _, Ledger.enrolls_enroll⟩
  | unset => exact ⟨.undefined, m, .pure, .refl _, Ledger.enrolls_enroll⟩

/-- Names are assigned to the items of an array from an index on. -/
theorem setNames_runs (names : List String) (hfills : e.Fills limit) (hlimit : limit ≤ o)
    (hfilling : e.Filling o n) :
    ∃ e', e.Runs ((names.zipIdx n).forM fun (name, index) =>
        setProperty o (.item index) (.string name)) () e' ∧ e.Keeps (· ≠ o) e' := by
  induction names generalizing e n with
  | nil => exact ⟨e, .pure, .refl _⟩
  | cons name names ih =>
      obtain ⟨e₁, hset, hkeeps, hfilling₁⟩ := hfilling.add hfills hlimit (.string name)
      have hfills₁ := hfills.keeps (hkeeps.mono fun y _ hy => ne_of_limit_le hlimit y hy)
        (Nat.le_trans hlimit (Nat.le_of_lt hfilling.lt))
      obtain ⟨e', hrest, hkeeps'⟩ := ih hfills₁ hfilling₁
      exact ⟨e', .bind hset hrest, hkeeps.trans hkeeps'⟩

/-- An array of names is built, however many they are. -/
theorem listOfNames_runs (hfills : e.Fills limit) (hlimit : limit ≤ e.objects.size)
    (names : List String) : ∃ e', e.Runs (listOfNames names) (.object e.objects.size) e' ∧
      e.Keeps (fun _ => True) e' := by
  have hblank : e.Keeps (fun _ => True) _ := .push (.arrayWith [])
  obtain ⟨e', hnames, hkeeps⟩ := setNames_runs names
    (hfills.keeps (hblank.mono fun _ _ _ => trivial) hlimit) hlimit e.filling_new
  exact ⟨e', .bind newArray_runs (.bind hnames .pure), hblank.andNew hkeeps (Nat.le_refl _)⟩

end Script

end HostView
