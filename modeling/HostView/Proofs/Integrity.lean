import HostView.Proofs.Confidentiality
import HostView.Proofs.Host.Acyclic

/-! # What a mask keeps from being written

A script that is shown values under one mask only cannot touch what the mask hides: whatever it does,
every hidden slot of every record that is there goes on to hold what it holds. A record that the
conversion of a plain object builds is new, and the conversion goes by the type alone; so a script may
fill the hidden slots of a record when it has the record built, and not a moment later.
-/

namespace HostView.Script

variable {P : Policy} {masks : Mask → Prop} {n : Nat} {mask : Mask} {h : Heap} {m : Machine}
  {move : Move}

/-- Host values are well typed, and they are shown as the policy allows. -/
def Machine.Obeys (P : Policy) (m : Machine) : Prop :=
  Bridge.Kin P 0 m.toBridge m.toBridge

theorem obeys_start {e : Engine} (hh : h.WellTyped) :
    Machine.Obeys (.ofMasks masks) ⟨e, .start h⟩ :=
  ⟨hh.kin, rfl, nofun, nofun, fun _ _ _ _ => trivial, fun _ _ => trivial, Nat.zero_le _,
    IntegerCache.exact_empty⟩

/-- A run keeps to the policy, and leaves every slot of a record that was there as it is, unless a
mask exposes the slot under which the record may be shown. -/
theorem Machine.Obeys.run {moves : List Move} (hm : m.Obeys P) (n : Nat)
    (given : List (Except Thrown Reply)) (hmoves : ∀ move ∈ moves, move.Allowed P m.heap)
    (hlends : ∀ r, P.Lends r := by exact fun _ => trivial) :
    (Move.run n moves given m).2.Obeys P ∧
      Bridge.Leads P False m.heap.cells.size m.toBridge (Move.run n moves given m).2.toBridge := by
  have hknown : ∀ v, P.Knows v := fun v => hm.fresh v (Nat.zero_le v)
  -- the run is seen from where it begins: all that is there by then is old
  have halike : m.Kin P m.heap.cells.size m :=
    ⟨rfl, { hm with old_le := Nat.le_refl _, fresh := fun v _ => hknown v }⟩
  have hrun := halike.run n given hmoves hlends
  exact ⟨{ hrun.alike.bridge with old_le := Nat.zero_le _, fresh := fun v _ => hknown v }, hrun.leads⟩

/-- The move shows values under the mask only. -/
def Move.Under (mask : Mask) (h : Heap) : Move → Prop
  | expose mask' root => mask' = mask ∧ root < h.cells.size
  | act _ => True

theorem Move.Under.allowed (hmove : move.Under mask h) : move.Allowed (.ofMasks (· = mask)) h := by
  cases move with
  | expose mask' root => exact ⟨hmove.2, hmove.1⟩
  | act choose => trivial

/-- Where values are shown under one mask only, a script never changes what a slot holds that the mask
hides, in any record that was there when the run began or that the run has built up to now. -/
theorem hidden_slots_kept (mask : Mask) (n : Nat) (e : Engine) {g : Heap} (hg : g.WellTyped)
    (before after : List Move) (hbefore : ∀ move ∈ before, move.Under mask g)
    (hafter : ∀ move ∈ after,
      move.Under mask (Move.run n before [] ⟨e, .start g⟩).2.heap) :
    let p := Move.run n before [] ⟨e, .start g⟩
    let q := Move.run n after p.1 p.2
    ∀ r < p.2.heap.cells.size, ∀ i f, (p.2.heap.typeOf r).fields[i]? = some f →
      mask.exposes f.attributes = false →
        (q.2.heap.contentOf r).slot? i = (p.2.heap.contentOf r).slot? i := by
  intro p q r hr i f hf hhides
  have hstart : Machine.Obeys (.ofMasks (· = mask)) ⟨e, .start g⟩ := obeys_start hg
  obtain ⟨hobeys, -⟩ := hstart.run n [] fun move hmove =>
    (hbefore move hmove).allowed
  obtain ⟨-, hleads⟩ := hobeys.run n p.1 fun move hmove =>
    (hafter move hmove).allowed
  exact hleads.kept r hr i f hf fun mask' hmask => hmask ▸ hhides

/-! ### A box for an account -/

/-- The type of a box for an account, which is written to logs. -/
def boxType : HostType := .record 1 "box" [⟨"item", accountType, .log⟩]

/-- An account and an empty box. -/
def boxHeap (secret : Option Ref) : Heap :=
  ((accounts secret).alloc ⟨boxType, .record [none]⟩).2

theorem boxHeap_wellTyped {secret : Option Ref} (hsecret : ∀ v, secret = some v → v < 2) :
    (boxHeap secret).WellTyped :=
  (accounts_wellTyped hsecret).alloc
    (.record rfl fun i f v hf hv => by cases i <;> cases hv)

/-- An engine with a handler that reads and assigns, and with a plain object that spells an account
with a secret. -/
def boxEngine : Engine :=
  let plain (properties : List (Key × Property)) : Object :=
    ⟨.ordinary, some Intrinsic.object, true, properties⟩
  let function (f : Callable) : Object := ⟨.function f false, none, true, []⟩
  ⟨#[⟨.ordinary, none, true, []⟩, plain [], plain [], plain [], plain [], plain [], plain [],
      plain [], plain [], plain [], plain [],
      plain [(.name "get", .plain (.object 12)), (.name "set", .plain (.object 13))],
      function (.trap .get), function (.trap .set),
      plain [(.name "name", .plain (.string "a")), (.name "secret", .plain (.string "c"))]],
    0, []⟩

/-- The object that was given as the answer of the given number, or else the globals. -/
def objectGiven (i : Nat) (given : List (Except Thrown Reply)) : ObjectId :=
  match given[i]? with
  | some (.ok (.value (.object o))) => o
  | _ => Intrinsic.globals

/-- Puts the plain object into the box that was shown first. -/
def fillBox : Move := .act fun given => .set (objectGiven 0 given) (.name "item") (.object 14)

/-- The account that is there keeps its secret while a script fills the box. -/
theorem hidden_slots_kept_box :
    (boxHeap (some 1)).WellTyped ∧
    (∀ move ∈ [Move.expose .loggable 3], move.Under .loggable (boxHeap (some 1))) ∧
    let p := Move.run 9 [.expose .loggable 3] [] ⟨boxEngine, .start (boxHeap (some 1))⟩
    let q := Move.run 9 [fillBox] p.1 p.2
    (∀ move ∈ [fillBox], move.Under .loggable p.2.heap) ∧
      (q.2.heap.contentOf 2).slot? 1 = (p.2.heap.contentOf 2).slot? 1 := by
  have hh : (boxHeap (some 1)).WellTyped := boxHeap_wellTyped (by rintro v ⟨⟩; decide)
  have hbefore : ∀ move ∈ [Move.expose .loggable 3], move.Under .loggable (boxHeap (some 1)) := by
    simp [Move.Under, boxHeap, accounts]
  have hafter : ∀ move ∈ [fillBox], move.Under .loggable
      (Move.run 9 [.expose .loggable 3] [] ⟨boxEngine, .start (boxHeap (some 1))⟩).2.heap := by
    simp [Move.Under, fillBox]
  refine ⟨hh, hbefore, hafter, ?_⟩
  have hstart : Machine.Obeys (.ofMasks (· = .loggable)) ⟨boxEngine, .start (boxHeap (some 1))⟩ :=
    obeys_start hh
  obtain ⟨-, hleads⟩ := hstart.run 9 [] fun move hmove =>
    (hbefore move hmove).allowed
  have hlt : 2 < (boxHeap (some 1)).cells.size := by decide
  exact hidden_slots_kept .loggable 9 boxEngine hh _ _ hbefore hafter 2 (hleads.lt hlt) 1
    ⟨"secret", .atom .string, .optional⟩ ((hleads.typeOf_eq hlt).symm ▸ rfl) (by decide)

/-- A plain object that a script puts into the box makes a new account, whose secret is the script's
and none that was there. -/
theorem plain_object_sets_secret :
    (boxHeap (some 1)).WellTyped ∧
    let moves := [.expose .loggable 3, fillBox]
    (∀ move ∈ moves, move.Under .loggable (boxHeap (some 1))) ∧
    let q := Move.run 9 moves [] ⟨boxEngine, .start (boxHeap (some 1))⟩
    q.2.heap.Refers 3 4 ∧ (q.2.heap.typeOf 4).same accountType ∧
      (q.2.heap.contentOf 4).slot? 1 = some (some 6) ∧
      ∀ r i f v, ((boxHeap (some 1)).typeOf r).fields[i]? = some f →
        Mask.loggable.exposes f.attributes = false →
        ((boxHeap (some 1)).contentOf r).slot? i = some (some v) →
          (boxHeap (some 1)).contentOf v ≠ q.2.heap.contentOf 6 := by
  refine ⟨boxHeap_wellTyped (by rintro v ⟨⟩; decide), ?_, ?_, by decide +kernel, by decide +kernel, ?_⟩
  · simp [Move.Under, fillBox, boxHeap, accounts]
  · have hbox : (Move.run 9 [.expose .loggable 3, fillBox] []
        ⟨boxEngine, .start (boxHeap (some 1))⟩).2.heap.contentOf 3 = .record [some 4] := by
      decide +kernel
    rw [Heap.Refers, hbox]
    exact List.mem_singleton_self _
  · have hnew : (Move.run 9 [.expose .loggable 3, fillBox] []
        ⟨boxEngine, .start (boxHeap (some 1))⟩).2.heap.contentOf 6 = .atom (.string "c") := by
      decide +kernel
    intro r i f v hf hhides hv
    rw [hnew]
    -- the only secret that was there is another text
    match r, i with
    | 2, 0 =>
        cases hf
        exact absurd hhides (by decide)
    | 2, 1 =>
        cases hv
        decide
    | 3, 0 => cases hv
    | 0, _ | 1, _ | 2, _ + 2 | 3, _ + 1 | _ + 4, _ => cases hf

end HostView.Script
