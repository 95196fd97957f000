import HostView.Proofs.Exposure.Walks

/-! # What property keys denote

A property key denotes a field that a live record shows, a key of a live table, or nothing. This, and
what is held there, is all that the answers of a live value depend on. A key that is no text is refused
before it can denote anything.
-/

namespace HostView.Script

variable {call : Caller} {m m' : Machine} {target : ObjectId} {w : Receiver} {r : Ref} {mask : Mask}
  {k : Key} {name : String} {limit : Nat} {low : ObjectId} {v : Value} {α β : Type}

/-! ### Looking up fields -/

/-- A look-up changes no more than the cache. -/
theorem Machine.lookedUp_grows (m : Machine) (w : Receiver) (name : String) :
    m.Grows (fun _ => True) (m.lookedUp w name) := by
  refine ⟨.refl _, rfl, .refl _, id, fun ⟨declared, hdeclared, hcache⟩ => ⟨declared, hdeclared, ?_⟩⟩
  show (m.offsets.lookup nameHash (m.heap.typeOf w.value) name).2.Coherent nameHash declared
  cases htype : m.heap.typeOf w.value with
  | record d record fields =>
      exact (hcache.lookup record (hdeclared w.value d record fields htype) name).2
  | _ => exact hcache

/-- The field that is found is declared, and the mask exposes it. -/
theorem Machine.shownField?_declared {i : Nat} {f : Field HostType}
    (hf : m.shownField? w name = some (i, f)) :
    (m.heap.typeOf w.value).fields[i]? = some f ∧ w.mask.exposes f.attributes = true := by
  obtain ⟨offset, -, hfield⟩ := Option.bind_eq_some_iff.mp hf
  obtain ⟨f', hf', hexposed⟩ := Option.bind_eq_some_iff.mp hfield
  obtain ⟨hexposes, heq⟩ := Option.ite_none_right_eq_some.mp hexposed
  cases heq
  exact ⟨hf', hexposes⟩

/-- It has the name that is looked up. -/
theorem Machine.Coherent.shownField?_name (hm : m.Coherent) {i : Nat} {f : Field HostType}
    (hf : m.shownField? w name = some (i, f)) : f.name = name := by
  obtain ⟨declared, hdeclared, hcache⟩ := hm
  obtain ⟨hfield, -⟩ := Machine.shownField?_declared hf
  obtain ⟨d, record, fields, htype, hfield⟩ := HostType.eq_record_of_field hfield
  obtain ⟨offset, hoffset, hrest⟩ := Option.bind_eq_some_iff.mp hf
  obtain ⟨f', -, hexposed⟩ := Option.bind_eq_some_iff.mp hrest
  obtain ⟨-, heq⟩ := Option.ite_none_right_eq_some.mp hexposed
  cases heq
  have hplace : (fields.map (·.name))[i]? = some name := by
    rw [htype, OffsetCache.lookup] at hoffset
    have hnames := hdeclared w.value d record fields htype
    split at hoffset
    next layout hlayout =>
      rw [hcache d layout hlayout, hnames] at hoffset
      exact Layout.getElem?_of_offset? hoffset
    next => exact Layout.getElem?_of_offset? hoffset
  simpa [hfield] using hplace

/-- Of distinct names each leads to its own field. -/
theorem Machine.Coherent.shownField?_eq (hm : m.Coherent) {d : Nat} {record : String}
    {fields : List (Field HostType)} (htype : m.heap.typeOf w.value = .record d record fields)
    (hdistinct : (fields.map (·.name)).Nodup) (name : String) :
    m.shownField? w name = exposedAt? w.mask fields name := by
  obtain ⟨declared, hdeclared, hcache⟩ := hm
  have hoffset := (hcache.lookup record (hdeclared w.value d record fields htype) name).1
    (.inl hdistinct)
  rw [Machine.shownField?, htype, hoffset]
  rfl

/-! ### Denotations -/

/-- What a property key denotes in a live value, with what is held there. -/
inductive Denotation where
  | nothing
  | field (offset : Nat) (f : Field HostType) (slot : Option Ref)
  | key (a : Atom) (entry : Option Entry)

namespace Denotation

/-- There is a property: a field that is set, or an entry. -/
def present : Denotation → Bool
  | nothing => false
  | field _ _ slot => slot.isSome
  | key _ entry => entry.isSome

/-- What is found there. A field is found even if it is unset. -/
def sight? : Denotation → Option Sight
  | nothing => none
  | field _ _ slot => some (.ofItem slot)
  | key _ entry => entry.map Entry.sight

end Denotation

/-- What the object of a wrap stands for that holds the value under the mask. -/
def Machine.front (m : Machine) (r : Ref) (mask : Mask) : Receiver :=
  ⟨r, mask, WrapKind.of (m.heap.typeOf r)⟩

/-- What a key denotes in a live value. -/
def Machine.denoted (m : Machine) (w : Receiver) : Key → Denotation
  | .string (.text name) =>
    match m.heap.typeOf w.value with
    | .record _ _ _ =>
      match m.shownField? w name with
      | some (i, f) => .field i f (m.heap.field w.value i).toOption.join
      | none => .nothing
    | .table key _ =>
      match key.keyOfName name with
      | .ok a => .key a (m.heap.entryAt? w.value a)
      | .error _ => .nothing
    | _ => .nothing
  | _ => .nothing

theorem Machine.denoted_record {d : Nat} {record : String} {fields : List (Field HostType)}
    (htype : m.heap.typeOf w.value = .record d record fields) (name : String) :
    m.denoted w (.name name) =
      match m.shownField? w name with
      | some (i, f) => .field i f (m.heap.field w.value i).toOption.join
      | none => .nothing := by
  simp only [Machine.denoted, Key.name, htype]

theorem Machine.denoted_table {key : AtomType} {yield : Option HostType}
    (htype : m.heap.typeOf w.value = .table key yield) (name : String) :
    m.denoted w (.name name) =
      match key.keyOfName name with
      | .ok a => .key a (m.heap.entryAt? w.value a)
      | .error _ => .nothing := by
  simp only [Machine.denoted, Key.name, htype]

/-- Only a record has fields: it declares the one that is denoted, and the mask exposes it. -/
theorem Machine.denoted_field {i : Nat} {f : Field HostType} {slot : Option Ref}
    (h : m.denoted w k = .field i f slot) :
    ∃ d record fields, m.heap.typeOf w.value = .record d record fields ∧ fields[i]? = some f ∧
      w.mask.exposes f.attributes = true := by
  unfold Machine.denoted at h
  split at h
  next name =>
    split at h
    next d record fields htype =>
      split at h
      next i' f' hf =>
        cases h
        obtain ⟨hfield, hexposes⟩ := Machine.shownField?_declared hf
        rw [htype] at hfield
        exact ⟨d, record, fields, htype, hfield, hexposes⟩
      next => cases h
    next => split at h <;> cases h
    next => cases h
  next => cases h

/-- Only a table has keys. -/
theorem Machine.denoted_key {a : Atom} {entry : Option Entry} (h : m.denoted w k = .key a entry) :
    ∃ key yield, m.heap.typeOf w.value = .table key yield := by
  unfold Machine.denoted at h
  split at h
  next name =>
    split at h
    next => split at h <;> cases h
    next key yield htype => exact ⟨key, yield, htype⟩
    next => cases h
  next => cases h

/-- The key is a symbol or a text. -/
def Key.WellFormed (k : Key) : Prop := ∀ u, k ≠ .string (.illFormed u)

theorem Key.wellFormed_name (name : String) : (Key.name name).WellFormed := by
  rintro u ⟨⟩

theorem Key.WellFormed.cases (hk : k.WellFormed) :
    (∃ s, k = .symbol s) ∨ ∃ name, k = .name name := by
  cases k with
  | symbol s => exact .inl ⟨s, rfl⟩
  | string s =>
      cases s with
      | text name => exact .inr ⟨name, rfl⟩
      | illFormed u => exact absurd rfl (hk u)

/-- The key is the name of a field that the live value shows, or a name of one of the keys that its type
admits. -/
def Machine.Names (m : Machine) (w : Receiver) (k : Key) : Prop :=
  (∃ f ∈ (m.heap.typeOf w.value).fields, w.mask.exposes f.attributes = true ∧ k = .name f.name) ∨
    ∃ key yield name a, m.heap.typeOf w.value = .table key yield ∧ k = .name name ∧
      key.keyOfName name = .ok a

/-- A key that names nothing denotes nothing. -/
theorem Machine.Coherent.denoted_eq (hm : m.Coherent) (hk : ¬ m.Names w k) :
    m.denoted w k = .nothing := by
  unfold Machine.denoted
  split
  next name =>
    split
    next d record fields htype =>
      split
      next i f hf =>
        obtain ⟨hfield, hexposes⟩ := Machine.shownField?_declared hf
        refine absurd (.inl ⟨f, List.mem_of_getElem? hfield, hexposes, ?_⟩) hk
        rw [hm.shownField?_name hf]
        rfl
      next => rfl
    next key yield htype =>
      split
      next a ha => exact absurd (.inr ⟨key, yield, name, a, htype, rfl, ha⟩) hk
      next => rfl
    next => rfl
  next => rfl

/-- A live value is a record or a table. -/
theorem WrapKind.cases_of_ne_bare {type : HostType} (hlive : WrapKind.of type ≠ .bare) :
    (∃ d record fields, type = .record d record fields ∧ WrapKind.of type = .record) ∨
      ∃ key yield, type = .table key yield ∧ WrapKind.of type = .table := by
  cases type with
  | record d record fields => exact .inl ⟨d, record, fields, rfl, rfl⟩
  | table key yield => exact .inr ⟨key, yield, rfl, rfl⟩
  | _ => exact absurd rfl hlive

/-! ### Showing what is found -/

/-- What a script is shown for what is found. -/
def showSight (mask : Mask) : Sight → Action Value
  | .value r => wrapValue mask r
  | .present => return .bool true
  | .unset => return .undefined

/-- The script value stands for what is found, with objects from `low` on. -/
def RepresentsSight (m : Machine) (h : Heap) (mask : Mask) (low : ObjectId) (v : Value) :
    Sight → Prop
  | .value r => Represents m h mask low v r
  | .present => v = .bool true
  | .unset => v = .undefined

theorem RepresentsSight.mono {h : Heap} {low' : ObjectId} {s : Sight}
    (hv : RepresentsSight m h mask low v s) (hgrows : m.Grows (low ≤ ·) m') (hlow : low' ≤ low) :
    RepresentsSight m' h mask low' v s := by
  cases s with
  | value r => exact Represents.mono hv hgrows.engine hgrows.wraps hlow
  | present | unset => exact hv

theorem RepresentsSight.settled {h : Heap} {s : Sight} (hv : RepresentsSight m h mask low v s) :
    v.Settled m.toEngine := by
  cases s with
  | value r => exact Represents.settled hv
  | present | unset =>
      cases hv
      nofun

theorem fieldValue_sight (m : Machine) (w : Receiver) (i : Nat) :
    Becomes m (fieldValue w i) m
      (showSight w.mask (.ofItem (m.heap.field w.value i).toOption.join)) := by
  unfold fieldValue
  apply SameOn.get_bind
  rcases m.heap.field w.value i with fault | (_ | v) <;> exact .refl

theorem entryValue_sight (w : Receiver) (e : Entry) :
    entryValue w e = showSight w.mask e.sight := by
  unfold entryValue Entry.sight
  cases e.yield <;> rfl

/-- What is found is shown, unless it is a vector that is too long for an array. -/
theorem showSight_represents (hh : m.heap.WellTyped) (hready : m.Ready limit) {s : Sight}
    (hshort : ∀ r, s = .value r → m.heap.Short (2 ^ 32 - 1) r) (call : Caller) (mask : Mask) :
    ∃ v m', Succeeds call m (showSight mask s) v m' ∧ m.Grows (fun _ => True) m' ∧
      RepresentsSight m' m.heap mask m.objects.size v s := by
  cases s with
  | value r => exact wrapValue_shows hh hready (hshort r rfl)
  | present => exact ⟨.bool true, m, .pure, .refl m, rfl⟩
  | unset => exact ⟨.undefined, m, .pure, .refl m, rfl⟩

/-! ### Answers -/

/-- The machine after a question at a key. -/
def Machine.asked (m : Machine) (w : Receiver) : Key → Machine
  | .string (.text name) => m.lookedUp w name
  | _ => m

theorem Machine.asked_grows (m : Machine) (w : Receiver) (k : Key) :
    m.Grows (fun _ => True) (m.asked w k) := by
  unfold Machine.asked
  split
  next name => exact m.lookedUp_grows w name
  next => exact .refl m

/-- No more than the cache changes. -/
theorem Machine.asked_eq (m : Machine) (w : Receiver) (k : Key) :
    m.asked w k = { m with offsets := (m.asked w k).offsets } := by
  unfold Machine.asked
  split <;> rfl

/-- What is found is shown on the machine that the question leaves. -/
theorem showSight_asked (hh : m.heap.WellTyped) (hready : m.Ready limit) {s : Sight}
    (hshort : ∀ r, s = .value r → m.heap.Short (2 ^ 32 - 1) r) (call : Caller) (w : Receiver) (k : Key)
    (mask : Mask) :
    ∃ v m', Succeeds call (m.asked w k) (showSight mask s) v m' ∧ m.Grows (fun _ => True) m' ∧
      RepresentsSight m' m.heap mask m.objects.size v s := by
  have hgrows := m.asked_grows w k
  obtain ⟨v, m', hshow, hgrows', hv⟩ := showSight_represents (hgrows.heap ▸ hh)
    (hready.grows hgrows fun _ _ => trivial) (hgrows.heap ▸ hshort) call mask
  rw [hgrows.heap] at hv
  exact ⟨v, m', hshow, hgrows.trans hgrows', hv.mono (.refl m') hgrows.size_le⟩

/-- Tables have no layout to be made. -/
theorem Machine.asked_table {key : AtomType} {yield : Option HostType}
    (htype : m.heap.typeOf w.value = .table key yield) (k : Key) : m.asked w k = m := by
  unfold Machine.asked
  split
  next name =>
    rw [Machine.lookedUp, htype]
    rfl
  next => rfl

theorem unanswered_eq (w : Receiver) (name : String) (other : Found) (target : ObjectId) :
    (if Key.name name = .name "toJSON" then do return .value (← snapshotFunction w)
      else if Key.name name = .symbol .tag then return .value (.object target)
      else return other) = unanswered w name other := by
  unfold unanswered
  simp [Key.name]

section

variable (hw : m.Wraps target r mask) (hlive : WrapKind.of (m.heap.typeOf r) ≠ .bare)
  (hk : k.WellFormed)

include hw hlive hk

/-- There is a property exactly where something is present. -/
theorem hostHas_denoted (call : Caller) : Succeeds call m (hostHas target k)
    (m.denoted (m.front r mask) k).present (m.asked (m.front r mask) k) := by
  have hreceiver : m.receiver? target = some (m.front r mask) := hw.receiver
  obtain ⟨s, rfl⟩ | ⟨name, rfl⟩ := hk.cases
  · have hnothing : SameOn m (hostHas target (.symbol s)) (pure false) := by
      unfold hostHas
      apply SameOn.get_bind
      rw [hreceiver]
      exact .classify rfl .refl
    exact hnothing.succeeds .pure
  obtain ⟨d, record, fields, htype, hkind⟩ | ⟨key, yield, htype, hkind⟩ :=
    WrapKind.cases_of_ne_bare hlive
  · rw [Machine.denoted_record htype]
    refine (hostHas_field hreceiver hkind name).succeeds
      ((exposedField_succeeds call m _ name).bind ?_)
    cases hfound : m.shownField? (m.front r mask) name with
    | none => exact .pure
    | some x =>
        have hheap : (m.lookedUp (m.front r mask) name).heap = m.heap := rfl
        apply Succeeds.get_bind
        rw [hheap, Denotation.present]
        rcases m.heap.field (m.front r mask).value x.1 with fault | (_ | v) <;> exact .pure
  · have hstands : m.Stands target (m.front r mask) key yield := ⟨hreceiver, hkind, htype⟩
    have hhas := hstands.hostHas_name call name
    rw [Machine.denoted_table htype, Machine.asked_table htype]
    cases hname : key.keyOfName name <;> rw [hname] at hhas <;> exact hhas

/-- What is found is described as an ordinary property. -/
theorem hostProperty_denoted : Becomes m (hostProperty target k) (m.asked (m.front r mask) k)
    (match (m.denoted (m.front r mask) k).sight? with
      | some s => do return some (.plain (← showSight mask s))
      | none => return none) := by
  have hreceiver : m.receiver? target = some (m.front r mask) := hw.receiver
  obtain ⟨s, rfl⟩ | ⟨name, rfl⟩ := hk.cases
  · have hnothing : SameOn m (hostProperty target (.symbol s)) (pure none) := by
      unfold hostProperty
      apply SameOn.get_bind
      rw [hreceiver]
      exact .classify rfl .refl
    exact hnothing
  obtain ⟨d, record, fields, htype, hkind⟩ | ⟨key, yield, htype, hkind⟩ :=
    WrapKind.cases_of_ne_bare hlive
  · rw [Machine.denoted_record htype]
    refine (hostProperty_field hreceiver hkind name).becomes
      (.step (fun call => exposedField_succeeds call m _ name) ?_)
    cases hfound : m.shownField? (m.front r mask) name with
    | none => exact .refl
    | some x =>
        have hvalue := fieldValue_sight (m.lookedUp (m.front r mask) name) (m.front r mask) x.1
        exact hvalue.bind
  · have hstands : m.Stands target (m.front r mask) key yield := ⟨hreceiver, hkind, htype⟩
    rw [Machine.denoted_table htype, Machine.asked_table htype]
    refine (hstands.hostProperty_name name).becomes ?_
    cases hname : key.keyOfName name with
    | error => exact .refl
    | ok a =>
        simp only [Except.toOption, Option.bind_some, Denotation.sight?, entryValue_sight]
        cases m.heap.entryAt? (m.front r mask).value a <;> exact .refl

/-- Reading gives what is found. Where nothing is, there is a function that takes snapshots at its name,
and the object of the wrap itself at the symbol of the bridge. Everywhere else a key of a table has no
value, and the rest is left to the prototypes. -/
theorem hostGet_denoted : Becomes m (hostGet target k) (m.asked (m.front r mask) k)
    (match (m.denoted (m.front r mask) k).sight? with
      | some s => do return .value (← showSight mask s)
      | none =>
        if k = .name "toJSON" then do return .value (← snapshotFunction (m.front r mask))
        else if k = .symbol .tag then return .value (.object target)
        else
          match m.denoted (m.front r mask) k with
          | .key _ _ => return .value .undefined
          | _ => return .inherited) := by
  have hreceiver : m.receiver? target = some (m.front r mask) := hw.receiver
  obtain ⟨s, rfl⟩ | ⟨name, rfl⟩ := hk.cases
  · have hsymbol : SameOn m (hostGet target (.symbol s))
        (if s = .tag then return .value (.object target) else return .inherited) := by
      unfold hostGet
      apply SameOn.get_bind
      rw [hreceiver]
      refine .classify (p := .symbol s) rfl ?_
      cases s <;> exact .refl
    refine hsymbol.becomes ?_
    rw [if_neg (show Key.symbol s ≠ .name "toJSON" from nofun)]
    simp only [Key.symbol.injEq]
    exact .refl
  obtain ⟨d, record, fields, htype, hkind⟩ | ⟨key, yield, htype, hkind⟩ :=
    WrapKind.cases_of_ne_bare hlive
  · rw [Machine.denoted_record htype]
    refine (hostGet_field hreceiver hkind name).becomes
      (.step (fun call => exposedField_succeeds call m _ name) ?_)
    cases hfound : m.shownField? (m.front r mask) name with
    | none =>
        rw [unanswered_eq]
        exact .refl
    | some x =>
        have hvalue := fieldValue_sight (m.lookedUp (m.front r mask) name) (m.front r mask) x.1
        exact hvalue.bind
  · have hstands : m.Stands target (m.front r mask) key yield := ⟨hreceiver, hkind, htype⟩
    rw [Machine.denoted_table htype, Machine.asked_table htype]
    refine (hstands.hostGet_name name).becomes ?_
    cases hname : key.keyOfName name with
    | error =>
        rw [unanswered_eq]
        exact .refl
    | ok a =>
        simp only [entryValue_sight, Denotation.sight?]
        cases m.heap.entryAt? (m.front r mask).value a with
        | none =>
            rw [unanswered_eq]
            exact .refl
        | some e => exact .refl

/-- Deleting clears a field or takes an entry out. -/
theorem hostDelete_denoted : Becomes m (hostDelete target k) (m.asked (m.front r mask) k)
    (match m.denoted (m.front r mask) k with
      | .nothing => return ()
      | .field i _ _ => changeHost fun h => h.setField r i none
      | .key a _ => removeEntry (m.front r mask) a) := by
  have hreceiver : m.receiver? target = some (m.front r mask) := hw.receiver
  obtain ⟨s, rfl⟩ | ⟨name, rfl⟩ := hk.cases
  · have hnothing : SameOn m (hostDelete target (.symbol s)) (pure ()) := by
      unfold hostDelete
      apply SameOn.get_bind
      rw [hreceiver]
      exact .classify rfl .refl
    exact hnothing
  obtain ⟨d, record, fields, htype, hkind⟩ | ⟨key, yield, htype, hkind⟩ :=
    WrapKind.cases_of_ne_bare hlive
  · rw [Machine.denoted_record htype]
    refine (hostDelete_field hreceiver hkind name).becomes
      (.step (fun call => exposedField_succeeds call m _ name) ?_)
    cases m.shownField? (m.front r mask) name <;> exact .refl
  · have hstands : m.Stands target (m.front r mask) key yield := ⟨hreceiver, hkind, htype⟩
    rw [Machine.denoted_table htype, Machine.asked_table htype]
    refine (hstands.hostDelete_key name).becomes ?_
    cases key.keyOfName name <;> exact .refl

end

end HostView.Script
