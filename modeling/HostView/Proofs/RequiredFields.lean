import HostView.Proofs.Acyclicity
import HostView.Proofs.Exposure.Records
import HostView.Proofs.Integrity

/-! # Required fields stay set

Whatever a host and a script do, a required field that is set stays set: every attempt to clear it is
refused and changes nothing, on either side. A record may begin without its required fields only if the
host builds it; one that is built by converting a script value has them by the time anything leads to
it.
-/

namespace HostView.Script

variable {m m' : Machine} {n : Nat} {call : Caller} {target : ObjectId} {r : Receiver} {v : Value}
  {name : String} {i : Nat} {f : Field HostType}

/-! ### Clearing a field through its record -/

/-- A record is written at the name. -/
theorem hostSet_field (hreceiver : m.receiver? target = some r) (hkind : r.kind = .record)
    (name : String) (v : Value) :
    SameOn m (hostSet target (.name name) v) (writeField r name v) := by
  obtain ⟨p, hp, hsymbol⟩ := PropertyName.ofKey_name name
  have hrender := PropertyName.render_of_ofKey hp
  unfold hostSet
  apply SameOn.get_bind
  rw [hreceiver]
  apply SameOn.classify hp
  rw [hkind]
  cases p with
  | symbol s => exact absurd rfl (hsymbol s)
  | index | name => exact hrender ▸ .refl

/-- Why a request to define a property is declined, whichever property it is. -/
def Descriptor.declined? (d : Descriptor) : Option Refusal :=
  if d.get.isSome || d.set.isSome then some .accessor
  else
    match d.switchedOff?, d.value with
    | some flag, _ => some (.flag flag)
    | none, none => some .valueMissing
    | none, some _ => none

/-- Why a request fails that could fail for the given cause: it may be declined before the property is
looked at. -/
def Request.cause (cause : Refusal) : Request → Refusal
  | define d => d.declined?.getD cause
  | _ => cause

theorem hostDefine_declined {d : Descriptor} {k : Key} {cause : Refusal}
    (hd : d.declined? = some cause) : hostDefine target k d = refuse cause := by
  unfold Descriptor.declined? at hd
  unfold hostDefine
  split at hd <;> rename_i hplain
  · cases hd
    exact if_pos hplain
  · rw [if_neg hplain]
    split at hd <;> cases hd <;> simp_all

/-- A request that is not declined is an assignment. -/
theorem hostDefine_plain {d : Descriptor} (target : ObjectId) (k : Key)
    (hd : d.declined? = none) :
    ∃ v, d.value = some v ∧ hostDefine target k d = hostSet target k v := by
  unfold Descriptor.declined? at hd
  unfold hostDefine
  by_cases haccessor : (d.get.isSome || d.set.isSome) = true
  · rw [if_pos haccessor] at hd
    cases hd
  · rw [if_neg haccessor] at hd ⊢
    cases hflag : d.switchedOff? with
    | some flag =>
        rw [hflag] at hd
        cases hd
    | none =>
        cases hvalue : d.value with
        | none =>
            rw [hflag, hvalue] at hd
            cases hd
        | some v => exact ⟨v, rfl, rfl⟩

/-- What is not cleared by the host is not cleared by writing an absent value. -/
theorem writeField_throws {fault : HostFault} (hf : m.shownField? r name = some (i, f))
    (habsent : v.isPresent = false) (hset : m.heap.setField r.value i none = .error fault) :
    Throws call m (writeField r name v) (.refused (.host fault)) (m.lookedUp r name) := by
  unfold writeField
  refine (exposedField_succeeds call m r name).bind_throws ?_
  have hslot : convertSlot (.inField name) f.type v = pure none := by simp [convertSlot, habsent]
  rw [hf]
  dsimp only
  rw [hslot]
  exact Succeeds.pure.bind_throws (changeHost_throws hset)

theorem writeField_hidden (hf : m.shownField? r name = none) :
    Throws call m (writeField r name v) (.refused (.noField (m.heap.typeOf r.value).render name))
      (m.lookedUp r name) := by
  unfold writeField
  refine (exposedField_succeeds call m r name).bind_throws ?_
  rw [hf]
  rfl

namespace Request

variable {request : Request} (hclears : request.Clears) (hreceiver : m.receiver? target = some r)
  (hkind : r.kind = .record)

include hclears hreceiver hkind

/-- A request to clear a field that the record shows fails with what the host refuses it with. -/
theorem throws {fault : HostFault} (hf : m.shownField? r name = some (i, f))
    (hset : m.heap.setField r.value i none = .error fault) :
    ∃ offsets, Throws call m (request.perform target (.name name))
      (.refused (request.cause (.host fault))) { m with offsets } := by
  cases request with
  | assign v =>
      exact ⟨_, (hostSet_field hreceiver hkind name v).throws (writeField_throws hf hclears hset)⟩
  | define d =>
      cases hd : d.declined? with
      | some reason =>
          rw [perform, cause, hd, hostDefine_declined hd]
          exact ⟨m.offsets, rfl⟩
      | none =>
          obtain ⟨v, hvalue, hdefine⟩ := hostDefine_plain target (.name name) hd
          rw [perform, cause, hd, hdefine]
          exact ⟨_, (hostSet_field hreceiver hkind name v).throws
            (writeField_throws hf (hclears v hvalue) hset)⟩
  | delete =>
      refine ⟨(m.lookedUp r name).offsets, (hostDelete_field hreceiver hkind name).throws ?_⟩
      refine (exposedField_succeeds call m r name).bind_throws ?_
      rw [hf]
      exact changeHost_throws hset

/-- Where the record shows no field of the name, there is nothing to delete, and any other request
fails. -/
theorem hidden (hf : m.shownField? r name = none) :
    ∃ offsets,
      (request = .delete →
        Succeeds call m (request.perform target (.name name)) () { m with offsets }) ∧
      (request ≠ .delete → Throws call m (request.perform target (.name name))
        (.refused (request.cause (.noField (m.heap.typeOf r.value).render name)))
        { m with offsets }) := by
  cases request with
  | assign v =>
      exact ⟨_, nofun, fun _ => (hostSet_field hreceiver hkind name v).throws (writeField_hidden hf)⟩
  | define d =>
      cases hd : d.declined? with
      | some reason =>
          rw [perform, cause, hd, hostDefine_declined hd]
          exact ⟨m.offsets, nofun, fun _ => rfl⟩
      | none =>
          obtain ⟨v, hvalue, hdefine⟩ := hostDefine_plain target (.name name) hd
          rw [perform, cause, hd, hdefine]
          exact ⟨_, nofun, fun _ => (hostSet_field hreceiver hkind name v).throws (writeField_hidden hf)⟩
  | delete =>
      refine ⟨(m.lookedUp r name).offsets, fun _ => ?_, fun hne => absurd rfl hne⟩
      refine (hostDelete_field hreceiver hkind name).succeeds ?_
      refine (exposedField_succeeds call m r name).bind ?_
      rw [hf]
      exact .pure

end Request

/-! ### Whole runs -/

/-- What becomes of a machine in the rest of a session. -/
inductive Continues (n : Nat) (m : Machine) : Machine → Prop where
  | refl : Continues n m m
  | step {m' : Machine} (event : Event) (hm' : Continues n m m') (hgiven : event.Given m'.heap) :
      Continues n m (event.step n m')

theorem Reachable.continues (hm : Reachable n m) (hm' : Continues n m m') : Reachable n m' := by
  induction hm' with
  | refl => exact hm
  | step event _ hgiven ih => exact .step event ih hgiven

/-- Host values grow throughout a session. -/
theorem Continues.extends (hm : Reachable n m) (hm' : Continues n m m') :
    m.heap.Extends m'.heap := by
  induction hm' with
  | refl => exact .refl _
  | step event hm' hgiven ih =>
      exact ih.trans ((hm.continues hm').sound.extends n event hgiven)

/-! ### What conversions build -/

theorem Machine.Sound.unlending (hm : m.Sound) :
    Bridge.Kin .unlending m.heap.cells.size m.toBridge m.toBridge where
  heap := hm.heap.left.kin
  rest := rfl
  wraps := hm.kin.wraps
  snapshots := hm.kin.snapshots
  known _ _ _ _ := trivial
  fresh _ _ := trivial
  old_le := Nat.le_refl _
  integers := hm.integers

/-- What something in a sound machine leads to is there. -/
theorem Machine.Sound.lt_of_retains (hm : m.Sound) {s : Ref} (hs : m.toBridge.Retains s) :
    s < m.heap.cells.size := by
  rcases hs with ⟨r, hr⟩ | ⟨w, wrap, hw, hvalue⟩
  · obtain ⟨σ, -, hholds⟩ := hm.heap.left.holds_part hr
    exact hholds.lt
  · exact (hm.wraps w wrap hw).2 s hvalue

/-- What is new and something leads to it is complete, unless the host handed it over. -/
theorem Machine.Sound.complete_of_leads (hm : m.Sound) {fixed : Prop}
    (hleads : Bridge.Leads .unlending fixed m.heap.cells.size m.toBridge m'.toBridge) {s : Ref}
    (hnew : m.heap.cells.size ≤ s) (hs : m'.toBridge.Retains s) : m'.heap.Complete s := by
  rcases hleads.whole s hs with hold | hcomplete | hlent
  · exact absurd (hm.lt_of_retains hold) (Nat.not_lt_of_le hnew)
  · exact hcomplete
  · exact hlent.elim

/-- What a conversion builds is complete when it is done, in all its parts. -/
theorem Machine.Sound.complete_of_toHost (hm : m.Sound) {type : HostType} {s : Ref}
    {x : Ref} (hrun : m.act n (toHost type v) = (.ok x, m'))
    (hnew : m.heap.cells.size ≤ s) (hs : Relation.ReflTransGen m'.heap.Refers x s) :
    m'.heap.Complete s := by
  have hconverts := converts (invoke_lawful .unlending m.heap.cells.size n) type v m.toEngine
    m.toBridge m.toBridge hm.unlending
  have hleads := hconverts.leads
  have hpost := hconverts.post
  have hrun' : ((toHost type v).run.run (invoke n)).run ⟨m.toEngine, m.toBridge⟩ = (.ok x, m') := hrun
  rw [hrun'] at hleads hpost
  rcases hs.cases_tail with hsame | ⟨r, -, hr⟩
  · subst hsame
    rcases hpost.supplied with hshows | ⟨-, hcomplete⟩
    · exact hm.complete_of_leads hleads hnew (.inr hshows)
    · exact hcomplete
  · exact hm.complete_of_leads hleads hnew (.inl ⟨r, hr⟩)

/-- So is what an operation of a script has had built, as soon as something leads to it. -/
theorem Machine.Sound.complete_of_script (hm : m.Sound) (n : Nat) (op : ScriptOperation) {s : Ref}
    (hnew : m.heap.cells.size ≤ s)
    (hs : (Event.step n m (.script op)).toBridge.Retains s) :
    (Event.step n m (.script op)).heap.Complete s := by
  have hcall := invoke_lawful .unlending m.heap.cells.size n
  have hagrees := Discipline.Agrees.routine (e := m.toEngine) hcall hm.unlending op.perform
  exact hm.complete_of_leads hagrees.leads hnew hs

/-- A required field of a record stays set once it is set, whatever a host and a script do: on either
side no attempt to clear it succeeds, or changes a host value. Through an object that shows the field,
as to the host itself, it is refused because the field is required; through one that does not, the
field does not exist, which is no fault where it is to be deleted. And all that a script had built by
converting values is complete, in all its parts that were not there before. -/
theorem required_fields_stay (hm : Reachable n m) :
    (∀ m', Continues n m m' → ∀ r i f, (m.heap.typeOf r).fields[i]? = some f →
      f.attributes.isOptional = false → m.heap.Filled r i → m'.heap.Filled r i) ∧
    (∀ r descriptor record fields i f, m.heap.typeOf r = .record descriptor record fields →
      fields[i]? = some f → f.attributes.isOptional = false →
      m.heap.setField r i none = .error (.requiredField record f.name) ∧
      (∀ name, fieldOffset? fields name = some i →
        m.heap.setFieldByName r name none = .error (.requiredField record f.name)) ∧
      ∀ target receiver name (request : Request), m.receiver? target = some receiver →
        receiver.value = r → receiver.kind = .record → m.shownField? receiver name = some (i, f) →
        request.Clears → ∃ offsets, Throws (invoke n) m (request.perform target (.name name))
          (.refused (request.cause (.host (.requiredField record f.name)))) { m with offsets }) ∧
    (∀ target receiver name (request : Request), m.receiver? target = some receiver →
      receiver.kind = .record → m.shownField? receiver name = none → request.Clears →
      ∃ offsets,
        (request = .delete →
          Succeeds (invoke n) m (request.perform target (.name name)) () { m with offsets }) ∧
        (request ≠ .delete → Throws (invoke n) m (request.perform target (.name name))
          (.refused (request.cause (.noField (m.heap.typeOf receiver.value).render name)))
          { m with offsets })) ∧
    (∀ type v x m', m.act n (toHost type v) = (.ok x, m') → ∀ s, m.heap.cells.size ≤ s →
      Relation.ReflTransGen m'.heap.Refers x s → m'.heap.Complete s) ∧
    ∀ op s, m.heap.cells.size ≤ s → (Event.step n m (.script op)).toBridge.Retains s →
      (Event.step n m (.script op)).heap.Complete s := by
  have hh := hm.sound.heap.left
  refine ⟨fun m' hm' r i f hf hrequired hr => hr.extend (hm'.extends hm) hf hrequired, ?_,
    fun target receiver name request hreceiver hkind hf hclears =>
      Request.hidden hclears hreceiver hkind hf,
    fun type v x m' hrun s hnew hs => hm.sound.complete_of_toHost hrun hnew hs,
    fun op s hnew hs => hm.sound.complete_of_script n op hnew hs⟩
  intro r descriptor record fields i f htype hf hrequired
  have hclear := hh.setField_none htype hf hrequired
  refine ⟨hclear, fun name hi => hh.setFieldByName_none htype hf hrequired hi, ?_⟩
  rintro target receiver name request hreceiver rfl hkind hshown hclears
  exact Request.throws hclears hreceiver hkind hshown hclear

/-- A point whose required field is set, and which a script is shown. -/
theorem required_fields_stay_point :
    let type := HostType.record 0 "point" [⟨"x", .atom .string, .none⟩]
    let m := Event.step 9 (Event.step 9 (Event.step 9 (Event.step 9 (.start .empty)
      (.host (.create (.atom .string) (.atom (.string "a"))))) (.host (.createRecord type)))
      (.host (.setField 1 0 (some 0)))) (.expose .all 1)
    Reachable 9 m ∧ ∀ m', Continues 9 m m' → ∀ r i f, (m.heap.typeOf r).fields[i]? = some f →
      f.attributes.isOptional = false → m.heap.Filled r i → m'.heap.Filled r i := by
  intro type m
  have hm : Reachable 9 m := by
    refine .step _ (.step _ (.step _ (.step _ .start ?_) ?_) ?_) ?_
    · trivial
    · trivial
    · rintro v ⟨⟩
      decide
    · show 1 < 2
      decide
  exact ⟨hm, (required_fields_stay hm).1⟩

/-! ### Deleting what is not shown -/

/-- A note whose text is required, and is not written to logs. -/
def noteHeap : Heap :=
  ⟨#[⟨.atom .string, .atom (.string "a")⟩,
    ⟨.record 2 "note" [⟨"text", .atom .string, .none⟩], .record [some 0]⟩]⟩

/-- An engine with a handler that deletes. -/
def deletingEngine : Engine :=
  { boxEngine with
    objects := (boxEngine.objects.set! Intrinsic.bridge
      ⟨.ordinary, some Intrinsic.object, true, [(.name "deleteProperty", .plain (.object 12))]⟩).set! 12
        ⟨.function (.trap .delete) false, none, true, []⟩ }

/-- Where a mask hides a required field that is set, deleting it is no fault, though it stays set. -/
theorem delete_hidden_required :
    let run := Move.run 9 [.expose .loggable 1, .act fun given =>
      .delete (objectGiven 0 given) (.name "text")] [] ⟨deletingEngine, .start noteHeap⟩
    (∃ f, (noteHeap.typeOf 1).fields[0]? = some f ∧ f.attributes.isOptional = false) ∧
      noteHeap.Filled 1 0 ∧ run.1.map Except.isOk = [true, true] ∧
        (run.2.heap.contentOf 1).slot? 0 = some (some 0) :=
  ⟨⟨_, rfl, rfl⟩, ⟨0, rfl⟩, by decide +kernel, by decide +kernel⟩

end HostView.Script
