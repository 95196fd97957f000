import HostView.Proofs.Script.Calls
import HostView.Script.Reach

/-! # Sessions

A session is any interleaving of what the host does with its values and of what a script does with
what it was shown. Host values stay well typed throughout: every step keeps the machine sound, and so
does every session. The host may hand over any of its values, under any mask, and a script may do
whatever it likes.
-/

namespace HostView

/-! ### What the host does -/

/-- An operation of the host. -/
inductive HostOperation where
  /-- A new value with a content that refers to no other. -/
  | create (type : HostType) (content : Content)
  | createRecord (type : HostType)
  | createTable (type : HostType)
  | createVector (type : HostType)
  | createVariant (type : HostType) (variant : String)
  | setField (r : Ref) (offset : Nat) (value : Option Ref)
  | setFieldByName (r : Ref) (name : String) (value : Option Ref)
  | assign (r key : Ref) (yield : Option Ref)
  | remove (r key : Ref)
  | push (r item : Ref)

namespace HostOperation

/-- What the operation makes of the host values. -/
def perform (h : Heap) : HostOperation → Except HostFault Heap
  | create type content => (·.2) <$> h.new type content
  | createRecord type => (·.2) <$> h.newRecord type
  | createTable type => (·.2) <$> h.newTable type
  | createVector type => (·.2) <$> h.newVector type
  | createVariant type variant => (·.2) <$> h.newVariant type variant
  | setField r offset value => h.setField r offset value
  | setFieldByName r name value => h.setFieldByName r name value
  | assign r key yield => h.tableAssign r key yield
  | remove r key => (·.2) <$> h.tableRemove r key
  | push r item => h.vectorPush r item

/-- What is stored is a host value, and what is built refers to none. -/
def Given (h : Heap) : HostOperation → Prop
  | create _ content => content.Blank
  | setField _ _ value | setFieldByName _ _ value => ∀ v, value = some v → v < h.cells.size
  | assign _ key yield => key < h.cells.size ∧ ∀ v, yield = some v → v < h.cells.size
  | push _ item => item < h.cells.size
  | _ => True

end HostOperation

namespace Heap

variable {h h' : Heap}

theorem map_snd_eq_ok {α ε : Type} {x : Except ε (α × Heap)} (hx : (·.2) <$> x = .ok h') :
    ∃ a, x = .ok (a, h') := by
  cases x with
  | error fault => cases hx
  | ok y =>
      cases hx
      exact ⟨y.1, rfl⟩

/-- Setting a field by name is setting it at the offset of the name. -/
theorem setFieldByName_eq_ok {r : Ref} {name : String} {value : Option Ref}
    (hset : h.setFieldByName r name value = .ok h') :
    ∃ offset, h.offsetOf r name = .ok offset ∧ h.setField r offset value = .ok h' := by
  unfold setFieldByName at hset
  cases hoffset : h.offsetOf r name with
  | error fault => simp [hoffset, bind, Except.bind] at hset
  | ok offset => exact ⟨offset, rfl, by simpa [hoffset, bind, Except.bind] using hset⟩

end Heap

/-- What an operation of the host comes to if it does not fail: a new value that refers to no other,
or a change of one value. -/
inductive HostOperation.Done (h h' : Heap) : HostOperation → Prop
  | new {op : HostOperation} {type : HostType} {content : Content} {r : Ref}
      (hblank : content.Blank) (hnew : h.new type content = .ok (r, h')) : Done h h' op
  | setField {r : Ref} {offset : Nat} {value : Option Ref}
      (hvalue : ∀ v, value = some v → v < h.cells.size)
      (hset : h.setField r offset value = .ok h') : Done h h' (.setField r offset value)
  | setFieldByName {r : Ref} {name : String} {offset : Nat} {value : Option Ref}
      (hvalue : ∀ v, value = some v → v < h.cells.size) (hoffset : h.offsetOf r name = .ok offset)
      (hset : h.setField r offset value = .ok h') : Done h h' (.setFieldByName r name value)
  | assign {r key : Ref} {yield : Option Ref} (hkey : key < h.cells.size)
      (hyield : ∀ v, yield = some v → v < h.cells.size)
      (hassign : h.tableAssign r key yield = .ok h') : Done h h' (.assign r key yield)
  | remove {r key : Ref} {a : Atom} {present : Bool} (ha : h.contentOf key = .atom a)
      (herase : h.tableErase r a = .ok (present, h')) : Done h h' (.remove r key)
  | push {r item : Ref} (hitem : item < h.cells.size) (hpush : h.vectorPush r item = .ok h') :
      Done h h' (.push r item)

theorem HostOperation.done {h h' : Heap} {op : HostOperation} (hgiven : op.Given h)
    (hop : op.perform h = .ok h') : op.Done h h' := by
  cases op with
  | create type content =>
      obtain ⟨r, hnew⟩ := Heap.map_snd_eq_ok hop
      exact .new hgiven hnew
  | createRecord type =>
      obtain ⟨r, hnew⟩ := Heap.map_snd_eq_ok hop
      exact .new (Content.blank_record _) hnew
  | createTable type =>
      obtain ⟨r, hnew⟩ := Heap.map_snd_eq_ok hop
      exact .new Content.blank_table hnew
  | createVector type =>
      obtain ⟨r, hnew⟩ := Heap.map_snd_eq_ok hop
      exact .new Content.blank_vector hnew
  | createVariant type variant =>
      obtain ⟨r, hnew⟩ := Heap.map_snd_eq_ok hop
      obtain ⟨index, hnew⟩ := Heap.newVariant_eq_ok hnew
      exact .new (Content.blank_atom _) hnew
  | setField r offset value => exact .setField hgiven hop
  | setFieldByName r name value =>
      obtain ⟨offset, hoffset, hset⟩ := Heap.setFieldByName_eq_ok hop
      exact .setFieldByName hgiven hoffset hset
  | assign r key yield => exact .assign hgiven.1 hgiven.2 hop
  | remove r key =>
      obtain ⟨present, hremove⟩ := Heap.map_snd_eq_ok hop
      obtain ⟨a, ha, herase⟩ := Heap.tableRemove_eq_ok hremove
      exact .remove ha herase
  | push r item => exact .push hgiven hop

namespace Heap

variable {h h' : Heap}

/-- An operation of the host grows the heap and keeps it well typed. -/
theorem WellTyped.hostOperation (hh : h.WellTyped) {op : HostOperation} (hgiven : op.Given h)
    (hop : op.perform h = .ok h') : h'.WellTyped ∧ h.Extends h' := by
  cases HostOperation.done hgiven hop with
  | new hblank hnew => exact ⟨hh.new hblank hnew, extends_new hnew⟩
  | setField hvalue hset | setFieldByName hvalue _ hset =>
      exact ⟨hh.setField hvalue hset, extends_setField hset⟩
  | assign hkey hyield hassign =>
      exact ⟨hh.tableAssign hkey hyield hassign, extends_tableAssign hassign⟩
  | remove _ herase => exact ⟨hh.tableErase herase, extends_tableErase herase⟩
  | push hitem hpush => exact ⟨hh.vectorPush hitem hpush, extends_vectorPush hpush⟩

theorem Ordered.hostOperation (hh : h.Ordered) {op : HostOperation} (hgiven : op.Given h)
    (hop : op.perform h = .ok h') : h'.Ordered := by
  cases HostOperation.done hgiven hop with
  | new hblank hnew => exact hh.new hblank hnew
  | setField _ hset | setFieldByName _ _ hset => exact hh.setField hset
  | assign _ _ hassign => exact hh.tableAssign hassign
  | remove _ herase => exact hh.tableErase herase
  | push _ hpush => exact hh.vectorPush hpush

end Heap

namespace Ledger

/-- Every wrap that holds a value leads to a host value. -/
def Within (l : Ledger) (h : Heap) : Prop :=
  ∀ w wrap, l.wrap? w = some wrap → ∀ v, wrap.value = some v → v < h.cells.size

/-- A release takes a host value away from a wrap and gives none. -/
theorem Within.release {l : Ledger} {h : Heap} (hl : l.Within h) (w : WrapId) :
    (l.release w).2.Within h := by
  intro w' wrap hw v hv
  unfold Ledger.release at hw
  split at hw
  next => exact hl w' wrap hw v hv
  next => exact hl w' wrap hw v hv
  next wrap' _ _ =>
    simp only [wrap?, Array.getElem?_modify] at hw
    split at hw
    next =>
      obtain ⟨x, -, rfl⟩ := Option.map_eq_some_iff.mp hw
      cases hv
    next => exact hl w' wrap hw v hv

end Ledger

namespace Script

/-! ### What a script does -/

/-- An operation of a script. Its own objects and the objects that stand for host values are not
told apart. -/
inductive ScriptOperation where
  | get (o : ObjectId) (k : Key)
  | has (o : ObjectId) (k : Key)
  | set (o : ObjectId) (k : Key) (v : Value)
  | define (o : ObjectId) (k : Key) (d : Descriptor)
  | delete (o : ObjectId) (k : Key)
  | keys (o : ObjectId)
  | describe (o : ObjectId) (k : Key)
  | spread (v : Value)
  /-- Calls a function, such as the one that takes snapshots. -/
  | call (f this : Value) (arguments : List Value)
  /-- Runs a whole program. -/
  | run (p : Program)

/-- What an operation of a script gives. -/
inductive Reply where
  | done
  | value (v : Value)
  | flag (b : Bool)
  | keys (ks : List Key)
  | property (p : Option Property)

namespace ScriptOperation

/-- Performs the operation. -/
def perform : ScriptOperation → Routine Reply
  | get o k => .value <$> getProperty o k
  | has o k => .flag <$> hasProperty o k
  | set o k v => do
    setProperty o k v
    return .done
  | define o k d => do
    (← defineProperty o k d).orThrow
    return .done
  | delete o k => do
    deleteProperty o k
    return .done
  | keys o => .keys <$> ownKeys o
  | describe o k => .property <$> getOwnProperty o k
  | spread v => .value <$> spreadOf v
  | call f this arguments => .value <$> callValue f this arguments
  | run p => .value <$> p.run

end ScriptOperation

/-- Runs an action on a machine, with so many open calls at most. -/
def Machine.act {ε α : Type} (m : Machine) (n : Nat) (a : ExceptT ε Effect α) :
    Except ε α × Machine :=
  (a.run.run (invoke n)).run m

/-! ### Steps of a session -/

/-- What may happen next. -/
inductive Event where
  | host (op : HostOperation)
  /-- A host value is handed to the script, as it appears under a mask. -/
  | expose (mask : Mask) (r : Ref)
  /-- A host value is handed to the script as an object, whatever its type. -/
  | exposeObject (mask : Mask) (r : Ref)
  | script (op : ScriptOperation)
  /-- A script value is converted for the host. -/
  | convert (type : HostType) (v : Value)
  /-- Wraps that no script can reach are released. -/
  | collect
  /-- Wraps to which nothing holds on are released. -/
  | prune
  /-- The script and all that it had are gone, and a new one begins; host values stay. -/
  | restart

namespace Event

/-- The machine after the event, in which so many calls may be open at one time. An operation that
fails or throws leaves what it did before. -/
def step (n : Nat) (m : Machine) : Event → Machine
  | host op =>
    match op.perform m.heap with
    | .ok heap => { m with heap }
    | .error _ => m
  | expose mask r => (m.act n (wrapValue mask r)).2
  | exposeObject mask r => (m.act n (wrapObject mask r)).2
  | script op => (m.act n (liftM op.perform : Action Reply)).2
  | convert type v => (m.act n (toHost type v)).2
  | collect => m.collect
  | prune => m.prune
  | restart => .start m.heap

/-- What the host uses in the event are host values. -/
def Given (h : Heap) : Event → Prop
  | host op => op.Given h
  | expose _ r | exposeObject _ r => r < h.cells.size
  | _ => True

end Event

/-- What becomes of a machine without host values in a session, of which the parameter bounds how
many calls are open at one time. -/
inductive Reachable (n : Nat) : Machine → Prop where
  | start : Reachable n (.start .empty)
  | step {m : Machine} (event : Event) (hm : Reachable n m) (hgiven : event.Given m.heap) :
      Reachable n (event.step n m)

/-! ### Sound machines -/

/-- Host values are well typed, what the bridge holds leads to host values, and the integers that it
keeps are those that they are kept for. -/
def Machine.Sound (m : Machine) : Prop :=
  Bridge.Twins (fun _ => True) 0 m.toBridge m.toBridge

variable {m : Machine} {n : Nat} {ε α : Type}

@[simp]
theorem Machine.heap_start (h : Heap) : (Machine.start h).heap = h := rfl

/-- A machine is sound if its heap is well typed and everything in the bridge leads to host values. -/
theorem Machine.sound_iff : m.Sound ↔ m.heap.WellTyped ∧
    (∀ wrap ∈ m.wraps.wraps, ∀ v ∈ wrap.value, v < m.heap.cells.size) ∧
    (∀ p ∈ m.snapshots, p.1 < m.heap.cells.size) ∧ m.integers.Exact := by
  refine Bridge.Twins.refl_iff.trans ⟨?_, ?_⟩
  · rintro ⟨hheap, hwraps, hsnapshots, -, hintegers⟩
    refine ⟨hheap, fun wrap hwrap v hv => ?_, fun p hp => (hsnapshots p hp).2, hintegers⟩
    obtain ⟨w, hw⟩ := Array.mem_iff_getElem?.mp hwrap
    exact (hwraps w wrap hw).2 v hv
  · rintro ⟨hheap, hwraps, hsnapshots, hintegers⟩
    exact ⟨hheap, fun w wrap hw => ⟨trivial, hwraps wrap (Array.mem_of_getElem? hw)⟩,
      fun p hp => ⟨trivial, hsnapshots p hp⟩, Nat.zero_le _, hintegers⟩

theorem sound_start {e : Engine} {h : Heap} (hh : h.WellTyped) :
    (⟨e, .start h⟩ : Machine).Sound :=
  Machine.sound_iff.mpr ⟨hh, nofun, nofun, IntegerCache.exact_empty⟩

/-- Releasing wraps is a run of releases. -/
theorem Machine.releaseWraps_eq (m : Machine) (lost : List ObjectId) :
    ∃ released : List WrapId,
      m.releaseWraps lost = { m with wraps := m.wraps.run (released.map .release) } :=
  ⟨_, by rw [Ledger.run, List.foldl_map]; rfl⟩

/-- Releasing wraps takes host values away from them and gives none. -/
theorem Machine.Sound.releaseWraps (hm : m.Sound) (lost : List ObjectId) :
    (m.releaseWraps lost).Sound := by
  refine Bridge.Kin.twins (hm.kin.keepHeap rfl ?_ hm.kin.snapshots hm.integers)
  obtain ⟨released, hreleased⟩ := m.releaseWraps_eq lost
  rw [hreleased]
  clear hreleased
  suffices hledger : ∀ l : Ledger, l.Within m.heap →
      (l.run (released.map .release)).Within m.heap from
    fun w wrap hw => ⟨⟨0, default, trivial⟩, fun v hv =>
      ⟨hledger m.wraps (fun w wrap hw => (hm.wraps w wrap hw).2) w wrap hw v hv, trivial⟩⟩
  induction released with
  | nil => exact fun l hl => hl
  | cons w released ih => exact fun l hl => ih _ (hl.release w)

/-! ### What an event leaves -/

/-- What an event leaves: another heap, what an action leads to, fewer wraps, or a new start. -/
inductive Event.Leaves (m : Machine) : Event → Machine → Prop where
  | host {op : HostOperation} {heap : Heap} (hgiven : op.Given m.heap)
      (hop : op.perform m.heap = .ok heap) : Leaves m (.host op) { m with heap }
  | failed {op : HostOperation} : Leaves m (.host op) m
  | act {event : Event} {m' : Machine} (hm' : m'.Sound)
      (hleads : Bridge.Leads (.ofMasks fun _ => True) False 0 m.toBridge m'.toBridge) :
      Leaves m event m'
  | release {event : Event} (lost : List ObjectId) : Leaves m event (m.releaseWraps lost)
  | restart : Leaves m .restart (.start m.heap)

/-- An action that agrees with itself leaves what it leads to. -/
theorem Event.Leaves.of_agrees {event : Event} {a : ExceptT ε Effect α} {post : α → Bridge → Prop}
    {blame : ε → Prop}
    (h : (Discipline.twins (fun _ => True) False 0).Agrees (invoke n) m.toEngine m.toBridge
      m.toBridge a a post blame) : event.Leaves m (m.act n a).2 :=
  .act (Bridge.Kin.twins h.alike) h.leads

theorem Machine.Sound.leaves (hm : m.Sound) (n : Nat) (event : Event)
    (hgiven : event.Given m.heap) : event.Leaves m (event.step n m) := by
  have hcall := invoke_lawful (.ofMasks fun _ => True) 0 n
  cases event with
  | host op =>
      rw [Event.step]
      split
      next heap hop => exact .host hgiven hop
      next => exact .failed
  | expose mask r =>
      exact .of_agrees (wrapValue_agrees hcall hm.kin hgiven trivial Bridge.offers_ofMasks)
  | exposeObject mask r =>
      exact .of_agrees (wrapObject_agrees hcall hm.kin hgiven trivial Bridge.offers_ofMasks)
  | script op => exact .of_agrees (.routine hcall hm.kin op.perform)
  | convert type v => exact .of_agrees (converts hcall type v _ _ _ hm.kin)
  | collect => exact .release _
  | prune => exact .release _
  | restart => exact .restart

/-- What the host does to its values leaves a sound machine. -/
theorem Machine.Sound.host (hm : m.Sound) {op : HostOperation} {heap : Heap}
    (hgiven : op.Given m.heap) (hop : op.perform m.heap = .ok heap) :
    Machine.Sound { m with heap } := by
  obtain ⟨hheap, hgrows⟩ := hm.heap.left.hostOperation hgiven hop
  exact (hm.kin.setHeap hheap.kin hgrows fun _ _ _ _ => trivial).twins

/-- Every event leaves a sound machine. -/
theorem Machine.Sound.step (hm : m.Sound) (event : Event) (hgiven : event.Given m.heap) :
    (event.step n m).Sound := by
  have hleaves := hm.leaves n event hgiven
  generalize event.step n m = m' at hleaves
  cases hleaves with
  | host hgiven hop => exact hm.host hgiven hop
  | failed => exact hm
  | act hm' => exact hm'
  | release lost => exact hm.releaseWraps lost
  | restart => exact sound_start hm.heap.left

theorem Reachable.sound (hm : Reachable n m) : m.Sound := by
  induction hm with
  | start => exact sound_start Heap.wellTyped_empty
  | step event _ hgiven ih => exact ih.step event hgiven

/-- Every event lets the host values grow. -/
theorem Machine.Sound.extends (hm : m.Sound) (n : Nat) (event : Event)
    (hgiven : event.Given m.heap) : m.heap.Extends (event.step n m).heap := by
  have hleaves := hm.leaves n event hgiven
  generalize event.step n m = m' at hleaves
  cases hleaves with
  | host hgiven hop => exact (hm.heap.left.hostOperation hgiven hop).2
  | act _ hleads => exact hleads.grows
  | failed | release => exact .refl m.heap
  | restart =>
      rw [Machine.heap_start]
      exact .refl m.heap

/-- The tables among the host values are sorted. -/
def Machine.Ordered (m : Machine) : Prop := m.heap.Ordered

theorem Machine.Ordered.start {h : Heap} (hh : h.Ordered) : (Machine.start h).Ordered := hh

/-- Every event leaves the tables sorted. -/
theorem Machine.Ordered.step (hordered : m.Ordered) (hm : m.Sound) (event : Event)
    (hgiven : event.Given m.heap) : (event.step n m).Ordered := by
  have hleaves := hm.leaves n event hgiven
  generalize event.step n m = m' at hleaves
  cases hleaves with
  | host hgiven hop => exact Heap.Ordered.hostOperation hordered hgiven hop
  | act _ hleads => exact hleads.ordered hordered
  | failed | release => exact hordered
  | restart => exact .start hordered

theorem Reachable.ordered (hm : Reachable n m) : m.Ordered := by
  induction hm with
  | start => exact Heap.ordered_empty
  | step event hm hgiven ih => exact ih.step hm.sound event hgiven

/-- The wraps are what a run of constructions, attachments and releases leaves, under a bridge that
is there. -/
def Machine.Recorded (m : Machine) : Prop :=
  ∃ events, .detach ∉ events ∧ m.wraps = Ledger.empty.run events

theorem Machine.Recorded.run {events : List WrapEvent} {wraps : Ledger} (hm : m.Recorded)
    (hevents : .detach ∉ events) (hwraps : wraps = m.wraps.run events) :
    Machine.Recorded { m with wraps } := by
  obtain ⟨earlier, hearlier, hrun⟩ := hm
  refine ⟨earlier ++ events, by simp [hearlier, hevents], ?_⟩
  rw [hwraps, hrun, Ledger.run_append]

/-- Every event goes on with the record of the wraps, or begins it anew. -/
theorem Machine.Recorded.step (hrecorded : m.Recorded) (hm : m.Sound) (event : Event)
    (hgiven : event.Given m.heap) : (event.step n m).Recorded := by
  have hleaves := hm.leaves n event hgiven
  generalize event.step n m = m' at hleaves
  cases hleaves with
  | host | failed => exact hrecorded
  | act _ hleads =>
      obtain ⟨events, hadds, hrun⟩ := hleads.wraps
      exact hrecorded.run (fun hevent => hadds _ hevent) hrun
  | release lost =>
      obtain ⟨released, hreleased⟩ := m.releaseWraps_eq lost
      rw [hreleased]
      exact hrecorded.run (by simp) rfl
  | restart => exact ⟨[], nofun, rfl⟩

/-- The counts of the bridge differ by the number of live wraps. -/
theorem Reachable.balanced (hm : Reachable n m) : m.wraps.Balanced := by
  suffices hrecorded : m.Recorded by
    obtain ⟨events, hevents, hrun⟩ := hrecorded
    rw [hrun]
    exact Ledger.balanced_empty.run hevents
  induction hm with
  | start => exact ⟨[], nofun, rfl⟩
  | step event hm hgiven ih => exact ih.step hm.sound event hgiven

/-- Whatever a host and a script do, every host value stays of its type, every field that a type
declares has its slot, and every value is written out to its end. -/
theorem reachable_wellTyped (hm : Reachable n m) :
    m.heap.WellTyped ∧
    (∀ r name fields slots offset f, m.heap.recordParts r = .ok (name, fields, slots) →
      fields[offset]? = some f → offset < slots.length) ∧
    ∀ r, (Image.of m.heap r).Valid ∧ ∀ word, m.heap.render r = (Image.of m.heap r).renderOr word :=
  have hh := hm.sound.heap.left
  ⟨hh, fun _ _ _ _ _ _ hparts hf => hh.offset_lt hparts hf,
    fun r => ⟨hh.valid_image r, fun word => hh.render_eq word r⟩⟩

/-- A record whose field the host sets, and which a script then reads and changes. -/
theorem reachable_wellTyped_record :
    let type := HostType.record 0 "point" [⟨"x", .atom .string, .optional⟩]
    let build := Event.step 9 (Event.step 9 (Event.step 9 (.start .empty)
      (.host (.create (.atom .string) (.atom (.string "a"))))) (.host (.createRecord type)))
      (.host (.setField 1 0 (some 0)))
    let m := Event.step 9 (Event.step 9 build (.expose .all 1))
      (.script (.set Intrinsic.globals (.name "x") (.string "b")))
    Reachable 9 m ∧ m.heap.WellTyped := by
  intro type build m
  have hm : Reachable 9 m := by
    refine .step _ (.step _ (.step _ (.step _ (.step _ .start ?_) ?_) ?_) ?_) ?_
    · trivial
    · trivial
    · rintro v ⟨⟩
      decide
    · show 1 < 2
      decide
    · trivial
  exact ⟨hm, (reachable_wellTyped hm).1⟩

end Script

end HostView
