import HostView.Proofs.Exposure.BarePrototypes
import HostView.Proofs.Exposure.Recovery
import HostView.Proofs.Host.Checking
import HostView.Proofs.Session

/-! # There and back

A host value that is shown to a script and converted back at once is the same again, as long as the
prototypes of plain objects and of arrays are intact and no array is too long for the engine. Masks
hide fields from scripts, but do not get in the way: a record is taken back as it is, with all its
fields.
-/

namespace HostView.Script

variable {m : Machine} {r : Ref} {type element : HostType} {refs : List Ref}

/-- What a host value becomes that is shown to a script and converted back at once, with the host
values after that. -/
def Machine.returned (m : Machine) (n : Nat) (mask : Mask) (r : Ref) (type : HostType) :
    Option (Ref × Heap) :=
  match m.act n (wrapValue mask r) with
  | (.ok v, m') =>
    match m'.act n (toHost type v) with
    | (.ok s, m'') => some (s, m''.heap)
    | (.error _, _) => none
  | (.error _, _) => none

theorem returned_eq {m' : Machine} {n : Nat} {mask : Mask} {v : Value} {s : Ref} {g : Heap}
    (hshow : Succeeds (invoke n) m (wrapValue mask r) v m')
    (hconvert : Succeeds (invoke n) m' (toHost type v) s { m' with heap := g }) :
    m.returned n mask r type = some (s, g) := by
  have hshow' : m.act n (wrapValue mask r) = (.ok v, m') := hshow
  have hconvert' : m'.act n (toHost type v) = (.ok s, { m' with heap := g }) := hconvert
  rw [Machine.returned, hshow']
  dsimp only
  rw [hconvert']

/-- A host value without unset items is recovered from what is shown for it, under every mask and at
every type of its structure. No host value changes. -/
theorem returned_recovers (hm : m.Sound) (hintact : m.Intact) (n : Nat) (mask : Mask)
    (hfull : m.heap.Full (2 ^ 31 - 1) r) (htype : (m.heap.typeOf r).same type = true) :
    ∃ s g, m.returned (n + 1) mask r type = some (s, g) ∧ m.heap.Adds g ∧
      m.heap.Recovers m.heap.cells.size g r s := by
  have hh := hm.heap.left
  have hready : m.Ready m.objects.size := ⟨hintact, Nat.le_refl _, hm.integers⟩
  have hexposes : Exposes (invoke (n + 1)) m (wrapValue mask r) r :=
    wrapValue_exposes hh hready (hfull.mono (Nat.sub_le _ _))
  obtain ⟨v, m', hshow, hgrows, hv⟩ := hexposes
  have hready' := hready.grows hgrows fun _ _ => trivial
  obtain ⟨s, g, hconvert, hadds, hs⟩ :=
    represents_returns hready' hh hfull hv type m'.heap htype (hgrows.heap ▸ .refl _)
  rw [hgrows.heap] at hadds hs
  exact ⟨s, g, returned_eq hshow hconvert, hadds, hs⟩

/-! ### Ports in vectors -/

/-- A port, a vector of it, a vector of vectors, and another port. -/
def portHeap : Heap :=
  ⟨#[⟨.atom .port, .atom (.port ⟨80, .tcp⟩)⟩, ⟨.vector (.atom .port), .vector [some 0, some 0]⟩,
    ⟨.vector (.vector (.atom .port)), .vector [some 1, some 1]⟩,
    ⟨.atom .port, .atom (.port ⟨53, .udp⟩)⟩]⟩

/-- An engine with little more than the prototypes of plain objects and of arrays, of which the first
has the given properties, and the handler of live values. One object is the token of a wrap, and one
a function that does nothing. -/
def portEngine (properties : List (Key × Property)) : Engine :=
  let plain : Object := ⟨.ordinary, some Intrinsic.object, true, []⟩
  let function (f : Callable) : Object := ⟨.function f false, none, true, []⟩
  ⟨#[⟨.ordinary, none, true, properties⟩, function (.trap .get),
      { Object.arrayWith [] with proto := some Intrinsic.object },
      function (.builtin (.object .self)), ⟨.wrap 0, none, true, []⟩, plain, plain, plain, plain,
      plain, plain, { plain with properties := [(.name "get", .plain (.object 1))] }],
    0, []⟩

/-- The host has handed the other port to the script as a bare token. -/
def portMachine (properties : List (Key × Property)) : Machine :=
  ⟨portEngine properties,
    { Bridge.start portHeap with wraps := ⟨#[⟨some 3, .all, .bare, .live⟩], true, 1, 0⟩ }⟩

theorem portHeap_wellTyped : portHeap.WellTyped := by decide

theorem portMachine_sound (properties : List (Key × Property)) :
    (portMachine properties).Sound := by
  have hwraps : ∀ wrap ∈ (portMachine properties).wraps.wraps, ∀ v ∈ wrap.value, v < 4 := by
    simp [portMachine]
  exact Machine.sound_iff.mpr ⟨portHeap_wellTyped, hwraps, nofun, IntegerCache.exact_empty⟩

theorem portEngine_bare : (portEngine []).Bare 12 := ⟨by decide, nofun, rfl, rfl, fun _ _ => rfl, rfl⟩

theorem portEngine_intact : (portEngine []).Intact 12 :=
  portEngine_bare.intact (by decide) nofun rfl ⟨1, false, true, true, true, by decide, rfl, rfl⟩

theorem portHeap_full : portHeap.Full (2 ^ 31 - 1) 2 := by
  have hport : portHeap.Full (2 ^ 31 - 1) 0 := .other nofun nofun
  have hvector : portHeap.Full (2 ^ 31 - 1) 1 :=
    @Heap.Full.vector portHeap _ 1 [0, 0] rfl (by decide) (by simpa using hport)
  exact @Heap.Full.vector portHeap _ 2 [1, 1] rfl (by decide) (by simpa using hvector)

/-- A vector of vectors of ports comes back as a new one, of new ports. -/
theorem returned_recovers_ports :
    (portMachine []).Sound ∧ (portMachine []).Intact ∧ portHeap.Full (2 ^ 31 - 1) 2 ∧
      ∃ s g, (portMachine []).returned 9 .loggable 2 (.vector (.vector (.atom .port))) = some (s, g) ∧
        portHeap.Adds g ∧ portHeap.Recovers 4 g 2 s :=
  ⟨portMachine_sound [], portEngine_intact, portHeap_full,
    returned_recovers (portMachine_sound []) portEngine_intact 8 .loggable portHeap_full rfl⟩

/-! ### Vectors that are too long -/

/-- A vector with one item more than that comes back without any. -/
theorem returned_long (hm : m.Sound) (hintact : m.Intact) (n : Nat) (mask : Mask)
    (hcell : m.heap.cell r = ⟨.vector element, .vector (refs.map some)⟩)
    (hlength : refs.length = 2 ^ 31) (hfull : m.heap.Full (2 ^ 31) r) :
    m.returned (n + 1) mask r (.vector element) =
      some (m.heap.alloc ⟨.vector element, .vector []⟩) := by
  have hh := hm.heap.left
  have hready : m.Ready m.objects.size := ⟨hintact, Nat.le_refl _, hm.integers⟩
  have hexposes : Exposes (invoke (n + 1)) m (wrapValue mask r) r :=
    wrapValue_exposes hh hready hfull
  obtain ⟨v, m', hshow, hgrows, hv⟩ := hexposes
  have hready' := hready.grows hgrows fun _ _ => trivial
  rw [← hgrows.heap]
  refine returned_eq hshow ?_
  cases hv with
  | atom hcell' | port hcell' | real hcell' =>
      rw [hcell] at hcell'
      cases hcell'
  | held _ _ _ _ hkind =>
      rw [Heap.typeOf_eq hcell] at hkind
      exact absurd rfl hkind
  | @vector _ _ slots o items hcell' _ _ hobject hsize =>
      have hslots : refs.map some = slots := by
        rw [hcell] at hcell'
        exact Content.vector.inj (congrArg Cell.content hcell')
      have hlong : 2 ^ 31 ≤ items.length := by
        rw [hsize, ← hslots, List.length_map]
        omega
      exact vector_long element hready'.untagged hobject hlong

/-! ### What gets in the way -/

/-- Truth values, so many that the engine keeps their number as a double. -/
def longHeap : Heap :=
  ⟨#[⟨.atom .bool, .atom (.bool true)⟩,
    ⟨.vector (.atom .bool), .vector ((List.replicate (2 ^ 31) 0).map some)⟩]⟩

theorem longHeap_full : longHeap.Full (2 ^ 31) 1 := by
  have hitems : ∀ s ∈ List.replicate (2 ^ 31) 0, longHeap.Full (2 ^ 31) s := by
    intro s hs
    obtain rfl := List.eq_of_mem_replicate hs
    exact .other nofun nofun
  exact .vector rfl (Nat.le_of_eq List.length_replicate) hitems

theorem longHeap_wellTyped : longHeap.WellTyped := by
  intro r hr
  match r with
  | 0 => exact .atom rfl
  | 1 =>
      refine .vector fun v hv => ?_
      obtain ⟨w, hw, hwv⟩ := List.mem_map.mp hv
      obtain rfl : v = 0 := (Option.some.inj hwv).symm.trans (List.eq_of_mem_replicate hw)
      exact ⟨by decide, rfl⟩

/-- A port is lost to a setter that plain objects inherit, and taken for another one if they inherit
the private symbol from a script that has caught it; a vector may be too long. -/
theorem returned_not_recovers :
    let losing := portMachine [(.name "port", .accessor none (some 3) false true)]
    let mistaking := portMachine [(.symbol .tag, .plain (.object 4))]
    let long : Machine := ⟨portEngine [], .start longHeap⟩
    (losing.Sound ∧ mistaking.Sound ∧ portHeap.Full (2 ^ 31 - 1) 0 ∧
        losing.returned 9 .all 0 (.atom .port) = none ∧
        (mistaking.returned 9 .all 0 (.atom .port)).map (·.1) = some 3) ∧
      long.Sound ∧ long.Intact ∧ longHeap.Full (2 ^ 31) 1 ∧
        long.returned 9 .all 1 (.vector (.atom .bool)) =
          some (longHeap.alloc ⟨.vector (.atom .bool), .vector []⟩) := by
  intro losing mistaking long
  have hlong : long.Sound :=
    Bridge.Twins.refl_iff.mpr
      ⟨longHeap_wellTyped, nofun, nofun, Nat.zero_le _, IntegerCache.exact_empty⟩
  refine ⟨⟨portMachine_sound _, portMachine_sound _, .other nofun nofun, ?_, ?_⟩, hlong,
    portEngine_intact, longHeap_full, ?_⟩
  · decide +kernel
  · decide +kernel
  · exact returned_long hlong portEngine_intact 8 .all rfl List.length_replicate longHeap_full

end HostView.Script
