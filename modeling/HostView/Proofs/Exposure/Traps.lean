import HostView.Exposure.Answering
import HostView.Proofs.Exposure.Assembling
import HostView.Proofs.Exposure.Denotations

/-! # Methods of live values

What the methods of the handler answer, as script values. Each asks the host value once; what it makes
of the answer is built by assignment, where no prototype may be in the way.
-/

namespace HostView.Script

variable {call : Caller} {m m₁ m' : Machine} {target : ObjectId} {k : Key} {v : Value}
  {limit : Nat} {r : Ref} {mask : Mask}

@[simp]
theorem Key.key_value (k : Key) : k.value.key = k := by
  cases k <;> rfl

/-! ### Functions that take snapshots -/

/-- The object is a function that takes snapshots of the value under the mask. -/
def Machine.Snapshots (m : Machine) (f : ObjectId) (r : Ref) (mask : Mask) : Prop :=
  ∃ number constructs, (m.object f).kind = .function (.snapshot number) constructs ∧
    m.snapshots[number]? = some (r, mask)

/-- Such a function is what a live value answers with for its snapshot. -/
theorem snapshotFunction_snapshots (call : Caller) (m : Machine) (w : Receiver) :
    ∃ f m', Succeeds call m (snapshotFunction w) (.object f) m' ∧ m'.Snapshots f w.value w.mask ∧
      m'.heap = m.heap ∧ m.toEngine.Keeps (fun _ => True) m'.toEngine := by
  let function : Object := ⟨.function (.snapshot m.snapshots.size) false, some Intrinsic.function,
    true, Intrinsic.functionProperties 0 none⟩
  let m₁ : Machine := { m with snapshots := m.snapshots.push (w.value, w.mask) }
  let m₂ : Machine := { m₁ with objects := m.objects.push function }
  have hnew : Gives call m₁ (newFunction (.snapshot m.snapshots.size) false none) m.objects.size m₂ :=
    rfl
  refine ⟨m.objects.size, m₂, ?_, ⟨m.snapshots.size, false, ?_, by simp [m₂, m₁]⟩, rfl,
    .push function⟩
  · exact .bind (.modifyGet _) (.bind (.routine hnew) .pure)
  · exact congrArg Object.kind (Engine.object_push_size function)

/-! ### Descriptions -/

/-- What the description of an ordinary property has. -/
def plainDescription (v : Value) : List (String × Value) :=
  [("value", v), ("writable", .bool true), ("enumerable", .bool true), ("configurable", .bool true)]

/-- An ordinary property is described by a new object. -/
theorem describePlain_runs {e : Engine} (hclear : e.Clear limit) (hlimit : limit ≤ e.objects.size)
    (v : Value) :
    ∃ e', e.Runs (describePlain v) (.object e.objects.size) e' ∧ e.Made e' (plainDescription v) := by
  obtain ⟨e₁, hset₁, hmade₁⟩ := e.made_new.add "value" v rfl (hclear.members _ (by decide)) hlimit
  obtain ⟨e₂, hset₂, hmade₂⟩ := hmade₁.add "writable" (.bool true) rfl
    (hclear.members _ (by decide)) hlimit
  obtain ⟨e₃, hset₃, hmade₃⟩ := hmade₂.add "enumerable" (.bool true) rfl
    (hclear.members _ (by decide)) hlimit
  obtain ⟨e₄, hset₄, hmade₄⟩ := hmade₃.add "configurable" (.bool true) rfl
    (hclear.members _ (by decide)) hlimit
  refine ⟨e₄, ?_, hmade₄⟩
  unfold describePlain
  refine .bind newPlain_runs (.bind hset₁ ?_)
  simp only [List.forIn_cons, List.forIn_nil]
  refine .bind (v := ⟨⟩) (.bind (.bind hset₂ .pure) ?_) .pure
  exact .bind (.bind hset₃ .pure) (.bind (.bind hset₄ .pure) .pure)

/-! ### Answers of the methods -/

namespace Trap

/-- What a method is handed first is the object of the wrap, and then the key. -/
theorem perform_eq (t : Trap) (target : ObjectId) (k : Key) (rest : List Value) :
    SameOn m (t.perform (.object target :: k.value :: rest))
      (match t with
        | .get => do
          match ← hostGet target k with
          | .value v => return v
          | .inherited => getProperty target k
        | .set => do
          hostSet target k (argument rest 0)
          return .bool true
        | .has => return .bool (← hostHas target k)
        | .delete => do
          hostDelete target k
          return .bool true
        | .list => do listOfNames (← hostKeys target)
        | .describe => do
          match (← hostProperty target k).bind Property.value? with
          | some v => describePlain v
          | none => return .undefined
        | .define => do
          let description ← needObject (argument rest 0)
          hostDefine target k (← readRequest description)
          return .bool true
        | .close => refuse .closed) := by
  intro call
  have hkey : (argument (.object target :: k.value :: rest) 1).key = k := Key.key_value k
  unfold perform
  rw [hkey]
  cases t <;> rfl

/-- The keys are listed as an array of the names that are shown. -/
theorem list_becomes (m : Machine) (target : ObjectId) (rest : List Value) :
    Becomes m (list.perform (.object target :: rest)) m
      (liftM (listOfNames (((m.receiver? target).map (shownNames m.heap)).getD []))) :=
  fun _ => rfl

/-- A string that is no text is refused by every method that takes a key to read or delete. -/
theorem perform_illFormed {w : Receiver} (hreceiver : m.receiver? target = some w) (call : Caller)
    (u : LoneSurrogate) (rest : List Value) {t : Trap} (ht : t ∈ [get, has, delete, describe]) :
    Throws call m (t.perform (.object target :: (Key.string (.illFormed u)).value :: rest))
      (.illFormedKey u.index) m := by
  have hclassify {α : Type} (answer : PropertyName → Action α) :
      Throws call m (liftM (classify (.string (.illFormed u))) >>= answer) (.illFormedKey u.index) m :=
    rfl
  simp only [List.mem_cons, List.not_mem_nil, or_false] at ht
  rcases ht with rfl | rfl | rfl | rfl
  all_goals
    refine (perform_eq _ target _ rest).throws (.bind (.get_bind ?_))
    rw [hreceiver]
    exact hclassify _

section

variable (hw : m.Wraps target r mask) (hlive : WrapKind.of (m.heap.typeOf r) ≠ .bare)
  (hk : k.WellFormed)

include hw hlive hk

theorem has_denoted (call : Caller) (rest : List Value) :
    Succeeds call m (has.perform (.object target :: k.value :: rest))
      (.bool (m.denoted (m.front r mask) k).present) (m.asked (m.front r mask) k) :=
  (perform_eq .has target k rest).succeeds (.bind (hostHas_denoted hw hlive hk call) .pure)

theorem describe_missing (call : Caller) (rest : List Value)
    (hmissing : (m.denoted (m.front r mask) k).sight? = none) :
    Succeeds call m (describe.perform (.object target :: k.value :: rest)) .undefined
      (m.asked (m.front r mask) k) := by
  have hproperty := hostProperty_denoted hw hlive hk
  rw [hmissing] at hproperty
  exact (perform_eq .describe target k rest).succeeds (.bind (hproperty.succeeds .pure) .pure)

/-- What is found is described by a new object, as an ordinary property whose value stands for it. -/
theorem describe_found (rest : List Value) (hh : m.heap.WellTyped) (hready : m.Ready limit)
    (hclear : m.Clear limit) {s : Sight} (hfound : (m.denoted (m.front r mask) k).sight? = some s)
    (hshort : ∀ v, s = .value v → m.heap.Short (2 ^ 32 - 1) v) (call : Caller) :
    ∃ o v m', Succeeds call m (describe.perform (.object target :: k.value :: rest)) (.object o) m' ∧
      m.Grows (fun _ => True) m' ∧ m'.object o = .plainWith (plainDescription v) ∧
      RepresentsSight m' m.heap mask m.objects.size v s := by
  obtain ⟨v, m', hshow, hgrows, hv⟩ := showSight_asked hh hready hshort call (m.front r mask) k mask
  have hclear' := hclear.keeps (hgrows.engine.mono fun _ _ _ => trivial) hready.limit_le
  obtain ⟨e, hdescribe, hmade⟩ := describePlain_runs hclear'
    (Nat.le_trans hready.limit_le hgrows.size_le) v
  have hgrows' : m'.Grows (fun _ => True) ⟨e, m'.toBridge⟩ := .ofEngine hmade.keeps
  have hproperty := hostProperty_denoted hw hlive hk
  rw [hfound] at hproperty
  refine ⟨_, v, _, (perform_eq .describe target k rest).succeeds
    (.bind (hproperty.succeeds (.bind hshow .pure)) (.routine (hdescribe call m'.toBridge))),
    hgrows.trans hgrows', hmade.object_eq, hv.mono (hgrows'.mono fun _ _ _ => trivial) (Nat.le_refl _)⟩

/-- What is found is read as a value that stands for it. -/
theorem get_found (rest : List Value) (hh : m.heap.WellTyped) (hready : m.Ready limit) {s : Sight}
    (hfound : (m.denoted (m.front r mask) k).sight? = some s)
    (hshort : ∀ v, s = .value v → m.heap.Short (2 ^ 32 - 1) v) (call : Caller) :
    ∃ v m', Succeeds call m (get.perform (.object target :: k.value :: rest)) v m' ∧
      m.Grows (fun _ => True) m' ∧ RepresentsSight m' m.heap mask m.objects.size v s := by
  obtain ⟨v, m', hshow, hgrows, hv⟩ := showSight_asked hh hready hshort call (m.front r mask) k mask
  have hget := hostGet_denoted hw hlive hk
  rw [hfound] at hget
  exact ⟨v, m', (perform_eq .get target k rest).succeeds
    (.bind (hget.succeeds (.bind hshow .pure)) .pure), hgrows, hv⟩

theorem get_snapshot (rest : List Value) (hmissing : (m.denoted (m.front r mask) k).sight? = none)
    (hjson : k = .name "toJSON")
    (hfunction : Succeeds call (m.asked (m.front r mask) k) (snapshotFunction (m.front r mask)) v m') :
    Succeeds call m (get.perform (.object target :: k.value :: rest)) v m' := by
  have hget := hostGet_denoted hw hlive hk
  rw [hmissing, if_pos hjson] at hget
  exact (perform_eq .get target k rest).succeeds
    (.bind (hget.succeeds (.bind hfunction .pure)) .pure)

/-- The value of an entry that is missing is not looked for on prototypes. -/
theorem get_vacant (call : Caller) (rest : List Value) {a : Atom}
    (hkey : m.denoted (m.front r mask) k = .key a none) (hjson : k ≠ .name "toJSON")
    (htag : k ≠ .symbol .tag) :
    Succeeds call m (get.perform (.object target :: k.value :: rest)) .undefined
      (m.asked (m.front r mask) k) := by
  have hget := hostGet_denoted hw hlive hk
  rw [hkey, Denotation.sight?, Option.map_none, if_neg hjson, if_neg htag] at hget
  exact (perform_eq .get target k rest).succeeds (.bind (hget.succeeds .pure) .pure)

/-- The prototypes of the wrap answer where nothing is denoted. -/
theorem get_inherited (rest : List Value) (hnothing : m.denoted (m.front r mask) k = .nothing)
    (hjson : k ≠ .name "toJSON") (htag : k ≠ .symbol .tag) :
    Becomes m (get.perform (.object target :: k.value :: rest)) (m.asked (m.front r mask) k)
      (liftM (getProperty target k)) := by
  have hget := hostGet_denoted hw hlive hk
  rw [hnothing, Denotation.sight?, if_neg hjson, if_neg htag] at hget
  exact (perform_eq .get target k rest).becomes hget.bind

/-- They answer what they have, if none of them is in the way. -/
theorem get_open (call : Caller) (rest : List Value)
    (hnothing : m.denoted (m.front r mask) k = .nothing) (hjson : k ≠ .name "toJSON")
    (htag : k ≠ .symbol .tag) (hlimit : limit ≤ m.objects.size)
    (hpasses : m.Passes limit k Property.Open limit (some Intrinsic.wrap)) :
    ∃ e, Succeeds call m (get.perform (.object target :: k.value :: rest))
        (m.inherited k limit (some Intrinsic.wrap)) ⟨e, (m.asked (m.front r mask) k).toBridge⟩ ∧
      m.toEngine.Keeps (fun _ => True) e := by
  have hinherited := get_inherited hw hlive hk rest hnothing hjson htag
  rw [m.asked_eq] at hinherited ⊢
  obtain ⟨w, state, htarget, -⟩ := hw.holds
  have hproto : (m.object target).proto = some Intrinsic.wrap := by rw [htarget]
  rw [← hproto] at hpasses ⊢
  obtain ⟨e, hread, hkeeps⟩ := getProperty_open
    (m := { m with offsets := (m.asked (m.front r mask) k).offsets }) call (by rw [htarget]; rfl)
    (by rw [htarget]; rfl) hpasses hlimit
  exact ⟨e, hinherited.succeeds (.routine hread), hkeeps⟩

theorem delete_nothing (call : Caller) (rest : List Value)
    (hnothing : m.denoted (m.front r mask) k = .nothing) :
    Succeeds call m (delete.perform (.object target :: k.value :: rest)) (.bool true)
      (m.asked (m.front r mask) k) := by
  have hdelete := hostDelete_denoted hw hlive hk
  rw [hnothing] at hdelete
  exact (perform_eq .delete target k rest).succeeds (.bind (hdelete.succeeds .pure) .pure)

/-- A field is cleared as the host clears it. -/
theorem delete_cleared (call : Caller) (rest : List Value) {i : Nat} {f : Field HostType}
    {slot : Option Ref} {heap : Heap} (hfield : m.denoted (m.front r mask) k = .field i f slot)
    (hclear : m.heap.setField r i none = .ok heap) :
    Succeeds call m (delete.perform (.object target :: k.value :: rest)) (.bool true)
      { m.asked (m.front r mask) k with heap } := by
  have hdelete := hostDelete_denoted hw hlive hk
  rw [hfield] at hdelete
  have hheap := (m.asked_grows (m.front r mask) k).heap
  exact (perform_eq .delete target k rest).succeeds
    (.bind (hdelete.succeeds (changeHost_gives (hheap ▸ hclear))) .pure)

/-- It is refused as the host refuses it. -/
theorem delete_refused (call : Caller) (rest : List Value) {i : Nat} {f : Field HostType}
    {slot : Option Ref} {fault : HostFault} (hfield : m.denoted (m.front r mask) k = .field i f slot)
    (hclear : m.heap.setField r i none = .error fault) :
    Throws call m (delete.perform (.object target :: k.value :: rest)) (.refused (.host fault))
      (m.asked (m.front r mask) k) := by
  have hdelete := hostDelete_denoted hw hlive hk
  rw [hfield] at hdelete
  have hheap := (m.asked_grows (m.front r mask) k).heap
  exact (perform_eq .delete target k rest).throws
    (.bind (hdelete.throws (changeHost_throws (hheap ▸ hclear))))

theorem delete_removed (call : Caller) (rest : List Value) {a : Atom} {entry : Option Entry}
    {entries : Entries Entry} (hkey : m.denoted (m.front r mask) k = .key a entry)
    (hcontent : m.heap.contentOf r = .table entries) :
    Succeeds call m (delete.perform (.object target :: k.value :: rest)) (.bool true)
      { m with heap := m.heap.update r (.table (entries.erase a)) } := by
  obtain ⟨key, yield, htype⟩ := Machine.denoted_key hkey
  have hdelete := hostDelete_denoted hw hlive hk
  rw [hkey, Machine.asked_table htype] at hdelete
  have hremove := removeEntry_gives call htype hcontent a
  exact (perform_eq .delete target k rest).succeeds (.bind (hdelete.succeeds hremove) .pure)

end

end Trap

end HostView.Script
