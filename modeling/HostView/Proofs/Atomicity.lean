import HostView.Proofs.Host.Checking
import HostView.Proofs.Session

/-! # All or nothing

Whatever is done with host values changes one place of one of them, or nothing at all, and nothing
if it fails. Reading changes nothing. An operation may call functions of the script in passing,
getters and setters and proxies, which may do what they like: here they are held to leave the host
values that were there as they are.
-/

namespace HostView

/-! ### What the host does -/

namespace HostOperation

variable {h h' : Heap} {op : HostOperation}

/-- The places of host values at which the operation may write. -/
def Opens (h : Heap) (s : Ref) (place : Place) : HostOperation → Prop
  | setField r offset _ => s = r ∧ place = .slot offset
  | setFieldByName r name _ => s = r ∧ ∃ offset, h.offsetOf r name = .ok offset ∧ place = .slot offset
  | assign r key _ | remove r key => s = r ∧ ∃ a, h.contentOf key = .atom a ∧ place = .entry a
  | push r _ => s = r ∧ place = .tail
  | _ => False

/-- The host values that the operation was given to store. -/
def Stores (v : Ref) : HostOperation → Prop
  | setField _ _ value | setFieldByName _ _ value => value = some v
  | assign _ key yield => key = v ∨ yield = some v
  | push _ item => item = v
  | _ => False

/-- An operation of the host writes at most at one place, and stores what it was given. -/
theorem writes (hgiven : op.Given h) (hop : op.perform h = .ok h') :
    ((∀ s < h.cells.size, h'.cell s = h.cell s) ∨
      ∃ s place, op.Opens h s place ∧ Heap.ChangedAt h.cells.size h h' s place) ∧
    ∀ s v, (h'.contentOf s).RefersTo v → (h.contentOf s).RefersTo v ∨ op.Stores v := by
  cases done hgiven hop with
  | new hblank hnew =>
      exact ⟨.inl fun s hs => Heap.cell_new hnew hs,
        fun s v hv => .inl (Heap.refersTo_new hblank hnew hv)⟩
  | setField _ hset =>
      exact ⟨.inr ⟨_, _, ⟨rfl, rfl⟩, Heap.changedAt_setField hset⟩,
        fun _ _ => Heap.refersTo_setField hset⟩
  | setFieldByName _ hoffset hset =>
      exact ⟨.inr ⟨_, _, ⟨rfl, _, hoffset, rfl⟩, Heap.changedAt_setField hset⟩,
        fun _ _ => Heap.refersTo_setField hset⟩
  | assign _ _ hassign =>
      obtain ⟨a, ha, hchanged⟩ := Heap.changedAt_tableAssign hassign
      exact ⟨.inr ⟨_, _, ⟨rfl, a, ha, rfl⟩, hchanged⟩, fun _ _ => Heap.refersTo_tableAssign hassign⟩
  | remove ha herase =>
      exact ⟨.inr ⟨_, _, ⟨rfl, _, ha, rfl⟩, Heap.changedAt_tableErase herase⟩,
        fun _ _ hv => .inl (Heap.refersTo_tableErase herase hv)⟩
  | push _ hpush =>
      exact ⟨.inr ⟨_, _, ⟨rfl, rfl⟩, Heap.changedAt_vectorPush hpush⟩,
        fun _ _ => Heap.refersTo_vectorPush hpush⟩

end HostOperation

namespace Script

open Discipline

variable {old n : Nat} {b c : Bridge} {call : Caller} {ε α : Type}

/-! ### Calls that spare host values -/

/-- No field is hidden where all masks are allowed. -/
theorem not_hidden_all (f : Field HostType) : ¬ Hidden (fun _ => True) f := by
  have hexposes : Mask.all.exposes f.attributes = true := by simp [Mask.exposes, Mask.all]
  exact not_hidden trivial hexposes

/-- Bridges that show the same under all masks are one. -/
theorem Bridge.Twins.eq (h : Bridge.Twins (fun _ => True) old b c) : b = c := by
  have hcell : ∀ r, b.heap.cell r = c.heap.cell r := by
    intro r
    rw [Heap.cell_eq, Heap.cell_eq, h.heap.typeOf_eq r]
    congr 1
    have halike := h.heap.alike r
    have hleft := h.heap.left.fits r
    have hright := h.heap.right.fits r
    rw [← h.heap.typeOf_eq r] at hright
    generalize b.heap.typeOf r = type, b.heap.contentOf r = content,
      c.heap.contentOf r = content' at halike hleft hright
    cases halike with
    | refl => rfl
    | @record descriptor name fields slots slots' hslots =>
        -- every field is shown under some mask, and past the fields there is nothing
        cases hleft with
        | record hlength _ =>
            cases hright with
            | record hlength' _ =>
                congr 1
                refine List.ext_getElem? fun i => ?_
                by_cases hi : i < fields.length
                · exact hslots i _ (List.getElem?_eq_getElem hi) (not_hidden_all _)
                · have hle := Nat.le_of_not_lt hi
                  rw [List.getElem?_eq_none (hlength ▸ hle), List.getElem?_eq_none (hlength' ▸ hle)]
  have hheap : b.heap = c.heap := by
    refine congrArg Heap.mk (Array.ext h.heap.size_eq fun i hb hc => ?_)
    have hi := hcell i
    simpa only [Heap.cell, Array.getElem?_eq_getElem hb, Array.getElem?_eq_getElem hc,
      Option.getD_some] using hi
  rw [h.rest, ← hheap]

open Classical in
/-- Calls functions in the same way, except that a call which would change one of the host values
below the bound throws instead and changes nothing. -/
noncomputable def Caller.sparing (old : Nat) (call : Caller) : Caller :=
  fun o purpose arguments m =>
    if ∀ s < old, ((call o purpose arguments).run.run m).2.heap.cell s = m.heap.cell s then
      (call o purpose arguments).run.run m
    else (.error .depth, m)

/-- Calls that spare host values hold them fixed. -/
theorem sparing_lawful (hcall : (twins (fun _ => True) False old).Lawful call) :
    (twins (fun _ => True) True old).Lawful (call.sparing old) := by
  intro o purpose arguments e b c h
  obtain rfl := Bridge.Twins.eq h.twins
  suffices hjoins : (twins (fun _ => True) True old).Joins b (fun _ _ => True)
      ((call.sparing old o purpose arguments).run.run ⟨e, b⟩)
      ((call.sparing old o purpose arguments).run.run ⟨e, b⟩) from hjoins
  -- a call that changes nothing below the bound is itself; any other one is the throw
  by_cases hframe : ∀ s < old,
      ((call o purpose arguments).run.run ⟨e, b⟩).2.heap.cell s = b.heap.cell s
  · have hrun : (call.sparing old o purpose arguments).run.run ⟨e, b⟩ =
        (call o purpose arguments).run.run ⟨e, b⟩ := if_pos hframe
    have hends := hcall o purpose arguments e b b h
    rw [hrun]
    exact ⟨rfl, rfl, hends.alike, { hends.leads with frame := fun _ => hframe }, trivial⟩
  · have hrun : (call.sparing old o purpose arguments).run.run ⟨e, b⟩ =
        (.error .depth, ⟨e, b⟩) := if_neg hframe
    rw [hrun]
    exact ⟨rfl, rfl, h, .refl b, trivial⟩

/-! ### Operations -/

/-- Anything that may be done with host values. -/
inductive Operation where
  | host (op : HostOperation)
  /-- Asks or changes a live value, by a method of the handler behind which it stands. -/
  | trap (t : Trap) (arguments : List Value)
  /-- Takes a snapshot. -/
  | snapshot (mask : Mask) (r : Ref)
  | expose (mask : Mask) (r : Ref)
  | exposeObject (mask : Mask) (r : Ref)
  /-- Converts a script value. -/
  | convert (type : HostType) (v : Value)

/-- Tries an action: whether it succeeds, and what it leaves. -/
def Machine.attempt (m : Machine) (call : Caller) (a : ExceptT ε Effect α) : Bool × Machine :=
  (((a.run.run call).run m).1.isOk, ((a.run.run call).run m).2)

namespace Operation

/-- Tries the operation, with the given way to call functions. -/
def run (call : Caller) (m : Machine) : Operation → Bool × Machine
  | host op =>
    match op.perform m.heap with
    | .ok heap => (true, { m with heap })
    | .error _ => (false, m)
  | trap t arguments => m.attempt call (t.perform arguments)
  | snapshot mask r => m.attempt call (snapshotValue r mask)
  | expose mask r => m.attempt call (wrapValue mask r)
  | exposeObject mask r => m.attempt call (wrapObject mask r)
  | convert type v => m.attempt call (toHost type v)

/-- What the host uses in the operation are host values. -/
def Given (h : Heap) : Operation → Prop
  | host op => op.Given h
  | expose _ r | exposeObject _ r => r < h.cells.size
  | _ => True

/-- The operation may change host values that are there. -/
def Changes : Operation → Prop
  | host _ => True
  | trap t _ => t.Changes
  | _ => False

/-- The places of host values at which the operation may write. -/
def Opens (call : Caller) (m : Machine) (s : Ref) (place : Place) : Operation → Prop
  | host op => op.Opens m.heap s place
  | trap t arguments => t.Opens arguments call m s place
  | _ => False

/-- The host values that the operation was given to store. -/
def Stores (v : Ref) : Operation → Prop
  | host op => op.Stores v
  | _ => False

/-- No function that the operation calls in passing changes a host value that was there: the run is
as it would be if such a call threw instead. -/
def Undisturbed (n : Nat) (m : Machine) (op : Operation) : Prop :=
  op.run (invoke n) m = op.run ((invoke n).sparing m.heap.cells.size) m

end Operation

/-- What an operation may do to the host values of a machine. -/
structure Operation.Atomic (op : Operation) (call : Caller) (m : Machine) (p : Bool × Machine) :
    Prop where
  /-- If it fails, all that was there is as it was. -/
  failure : p.1 = false → ∀ s < m.heap.cells.size, p.2.heap.cell s = m.heap.cell s
  /-- So it is if the operation only reads. -/
  reading : ¬ op.Changes → ∀ s < m.heap.cells.size, p.2.heap.cell s = m.heap.cell s
  /-- Otherwise one value may have changed, at one place. -/
  writing : (∀ s < m.heap.cells.size, p.2.heap.cell s = m.heap.cell s) ∨
    ∃ s place, op.Opens call m s place ∧
      Heap.ChangedAt m.heap.cells.size m.heap p.2.heap s place
  /-- What any value refers to it referred to before, or the host gave it, or it is new, or it was
  handed on by a script that holds it. -/
  storing : ∀ s v, (p.2.heap.contentOf s).RefersTo v →
    (m.heap.contentOf s).RefersTo v ∨ op.Stores v ∨ p.2.Gives m.heap.cells.size v

namespace Operation

variable {op : Operation} {m : Machine} {a : ExceptT ε Effect α}

theorem Opens.changes {s : Ref} {place : Place} (h : op.Opens call m s place) : op.Changes := by
  cases op with
  | host => trivial
  | trap => exact h.1
  | _ => exact h

/-- An operation is atomic if its action ends in the way of a write. -/
theorem Atomic.of_writes {blame : ε → Prop} (hop : op.run call m = m.attempt call a)
    (h : Writes (.ofMasks fun _ => True) True m.heap.cells.size call m.toEngine m.toBridge m.toBridge a a
      (op.Opens call m) blame) : op.Atomic call m (op.run call m) := by
  -- only a write that succeeds has changed anything, so a failure falls under the first case
  have hwritten := h.post.1 trivial
  have hstores := h.leads.stores
  rw [hop, Machine.attempt]
  generalize (a.run.run call).run m = q at hwritten hstores
  obtain ⟨x, m'⟩ := q
  cases hwritten with
  | kept hframe =>
      exact ⟨fun _ => hframe, fun _ => hframe, .inl hframe,
        fun s v hv => (hstores s v hv).imp_right .inr⟩
  | changed hmay hchanged =>
      exact ⟨nofun, fun hreads => absurd (Opens.changes hmay) hreads,
        .inr ⟨_, _, hmay, hchanged⟩, fun s v hv => (hstores s v hv).imp_right .inr⟩

theorem Atomic.host {op : HostOperation} (hgiven : op.Given m.heap) :
    (host op).Atomic call m ((host op).run call m) := by
  rw [run]
  cases hop : op.perform m.heap with
  | error =>
      exact ⟨fun _ _ _ => rfl, fun _ _ _ => rfl, .inl fun _ _ => rfl, fun _ _ => .inl⟩
  | ok heap =>
      obtain ⟨hwrites, hstores⟩ := HostOperation.writes hgiven hop
      exact ⟨nofun, fun hreads => absurd trivial hreads, hwrites,
        fun s v hv => (hstores s v hv).imp_right .inl⟩

/-- An operation is atomic where the functions that it calls spare host values. -/
theorem atomic (hm : m.Sound) (hgiven : op.Given m.heap)
    (hcall : (twins (fun _ => True) True m.heap.cells.size).Lawful call) :
    op.Atomic call m (op.run call m) := by
  have h : Bridge.Twins (fun _ => True) m.heap.cells.size m.toBridge m.toBridge :=
    { hm with old_le := Nat.le_refl _ }
  have hkin := h.kin
  cases op with
  | host op => exact .host hgiven
  | trap t arguments => exact .of_writes rfl (trap_writes hcall hkin t arguments)
  | snapshot mask r => exact .of_writes rfl (.of_agrees (snapshotValue_agrees hcall hkin trivial))
  | expose mask r =>
      exact .of_writes rfl
        (.of_agrees (wrapValue_agrees hcall hkin hgiven trivial Bridge.offers_ofMasks))
  | exposeObject mask r =>
      exact .of_writes rfl
        (.of_agrees (wrapObject_agrees hcall hkin hgiven trivial Bridge.offers_ofMasks))
  | convert type v => exact .of_writes rfl (.of_agrees (converts hcall type v _ _ _ hkin))

end Operation

/-- Every operation is atomic, unless a function that it calls in passing changes host values: it
does all or nothing, at one place of one value. -/
theorem operation_atomic {m : Machine} (hm : m.Sound) (n : Nat) (op : Operation)
    (hgiven : op.Given m.heap) (hquiet : op.Undisturbed n m) :
    op.Atomic ((invoke n).sparing m.heap.cells.size) m (op.run (invoke n) m) := by
  rw [hquiet]
  exact Operation.atomic hm hgiven (sparing_lawful (invoke_lawful _ _ n))

/-! ### A record among plain objects with a setter -/

/-- A number, a port, and a record of the two. -/
def flowHeap : Heap :=
  ⟨#[⟨.atom .int, .atom (.int 1)⟩, ⟨.atom .port, .atom (.port ⟨80, .tcp⟩)⟩,
    ⟨.record 0 "flow" [⟨"n", .atom .int, .none⟩, ⟨"p", .atom .port, .none⟩],
      .record [some 0, some 1]⟩]⟩

/-- An engine with a wrap of the record, in which plain objects inherit a setter of ports: it assigns
to the number of the record. -/
def flowEngine : Engine :=
  let plain (properties : List (Key × Property)) : Object := ⟨.ordinary, none, true, properties⟩
  let function (f : Callable) : Object := ⟨.function f false, none, true, []⟩
  ⟨#[plain [(.name "port", .accessor none (some 5) false true)], ⟨.wrap 0, none, true, []⟩,
      function (.trap .set), plain [(.name "set", .plain (.object 2))], ⟨.proxy 1 3, none, true, []⟩,
      function (.bound 6 .undefined [.object 4, .string "n"]),
      function (.builtin (.reflect .write))],
    0, []⟩

def flowMachine : Machine :=
  ⟨flowEngine, { Bridge.start flowHeap with wraps := ⟨#[⟨some 2, .all, .record, .live⟩], true, 1, 0⟩ }⟩

theorem flowMachine_sound : flowMachine.Sound :=
  Machine.sound_iff.mpr ⟨by decide, by decide, nofun, IntegerCache.exact_empty⟩

/-- The number of the record is assigned. -/
theorem operation_atomic_assignment :
    let op := Operation.trap .set [.object 1, .string "n", .int 7]
    flowMachine.Sound ∧ op.Given flowMachine.heap ∧ op.Undisturbed 9 flowMachine ∧
      op.Atomic ((invoke 9).sparing flowMachine.heap.cells.size) flowMachine
        (op.run (invoke 9) flowMachine) := by
  intro op
  have hsilent : ∀ call call', op.run call flowMachine = op.run call' flowMachine :=
    fun _ _ => rfl
  have hquiet : op.Undisturbed 9 flowMachine := hsilent _ _
  exact ⟨flowMachine_sound, trivial, hquiet, operation_atomic flowMachine_sound 9 op trivial hquiet⟩

/-- A function that is called in passing may well change host values: reading the port builds an
object, and the setter which takes its number assigns to the record. -/
theorem reading_changes_record :
    flowMachine.Sound ∧
    let op := Operation.trap .get [.object 1, .string "p"]
    let p := op.run (invoke 9) flowMachine
    ¬ op.Changes ∧ p.1 = true ∧ p.2.heap.cell 2 ≠ flowMachine.heap.cell 2 := by
  refine ⟨flowMachine_sound, id, by decide +kernel, fun hcell => ?_⟩
  have hcontent : (.record [some 3, some 1] : HostView.Content) = .record [some 0, some 1] := by
    refine Eq.trans ?_ (congrArg Cell.content hcell)
    decide +kernel
  cases hcontent

end Script

end HostView
