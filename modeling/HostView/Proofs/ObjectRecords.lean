import HostView.Proofs.Exposure.Untouched
import HostView.Proofs.Exposure.Seclusion
import HostView.Proofs.FaultPaths

/-! # Records made of object literals

A record is made of an object field by field, by reading the property of each field's name. An object
literal answers with its own property, and where it has none with nothing, unless the prototype of plain
objects has a property of the name. Then what the literal says itself decides what becomes of the record,
and nothing else. Main statement: `own_properties_decide`.
-/

namespace HostView.Script

variable {n : Nat} {call : Caller} {m m₁ m' : Machine} {r : Ref} {o o' : ObjectId} {descriptor : Nat}
  {record : String} {fields : List (Field HostType)} {f : Field HostType} {x : Field HostType × Nat}
  {fault : ConversionFault}

/-! ### Literals -/

/-- What an object says itself of a name: the value of its own property, or nothing. -/
def Engine.ownValue (e : Engine) (o : ObjectId) (name : String) : Value :=
  (((e.object o).own? (.name name)).bind Property.value?).getD .undefined

/-- Nothing is inherited at the key from the prototype of plain objects. -/
def Engine.Lacks (e : Engine) (k : Key) : Prop :=
  e.Passes e.objects.size k (· = none) e.objects.size (some Intrinsic.object)

/-- An object literal: an ordinary object that inherits from the prototype of plain objects and has no
getters or setters itself. The prototype has no properties of the fields' names, and both know nothing of
the private symbol. -/
structure Engine.Literal (e : Engine) (fields : List (Field HostType)) (o : ObjectId) : Prop where
  ordinary : (e.object o).kind = .ordinary
  heir : (e.object o).proto = some Intrinsic.object
  data : ∀ k p, (k, p) ∈ (e.object o).properties → ∃ v w en c, p = .data v w en c ∧ v.Settled e
  untagged : (e.object o).own? (.symbol .tag) = none ∧ e.Lacks (.symbol .tag)
  lacks : ∀ f ∈ fields, e.Lacks (.name f.name)

namespace Engine.Literal

theorem isProxy_eq {e : Engine} (h : e.Literal fields o) : (e.object o).isProxy = false := by
  rw [Object.isProxy, h.ordinary]

/-- A literal is an object that is neither an array nor a function. -/
theorem plain? {e : Engine} (h : e.Literal fields o) : e.plain? (.object o) = some o := by
  have hbehind := behindProxies_eq h.isProxy_eq
  have harray : e.isArray o = false := by
    rw [Engine.isArray, hbehind, h.ordinary]
  have hfunction : e.callable? o = none := by
    rw [Engine.callable?, hbehind, h.ordinary]
  rw [Engine.plain?, harray, hfunction]
  rfl

/-- A property that a literal has is one of those that are kept. -/
theorem mem_properties {e : Engine} (h : e.Literal fields o) {k : Key} {p : Property}
    (hown : (e.object o).own? k = some p) : (k, p) ∈ (e.object o).properties := by
  rw [Object.own?, Object.inherent?, h.ordinary] at hown
  obtain ⟨before, after, hsplit, -⟩ := List.lookup_eq_some_iff.mp hown
  rw [hsplit]
  exact List.mem_append_right _ List.mem_cons_self

variable (h : m.Literal fields o)

include h

/-- No host value is behind a literal. -/
theorem unheld (call : Caller) : Unheld call m (.object o) := by
  rintro _ ⟨⟩
  have hwrap : m.wrapOf? o = none := by
    rw [Machine.wrapOf?, h.ordinary]
  have habsent := h.untagged.2
  rw [Engine.Lacks, ← h.heir] at habsent
  exact unwrapValue_gives hwrap (getProperty_undefined h.isProxy_eq h.untagged.1 habsent (Nat.le_refl _))

theorem begins (call : Caller) (descriptor : Nat) (record : String) :
    Begins call m (.record descriptor record fields) (.object o) o m :=
  ⟨(h.unheld call).heldOf?, h.plain?⟩

/-- A field's name is answered by what the literal says itself. -/
theorem reads (call : Caller) (hf : f ∈ fields) :
    Gives call m (readProperty o (.name f.name)) (m.ownValue o f.name) m := by
  cases hown : (m.object o).own? (.name f.name) with
  | none =>
      have hlacks := h.lacks f hf
      rw [Engine.Lacks, ← h.heir] at hlacks
      rw [Engine.ownValue, hown]
      exact .bind (.attempt (getProperty_undefined h.isProxy_eq hown hlacks (Nat.le_refl _))) .pure
  | some p =>
      obtain ⟨v, w, en, c, rfl, hsettled⟩ := h.data _ p (h.mem_properties hown)
      rw [Engine.ownValue, hown]
      exact readProperty_gives h.isProxy_eq hown hsettled

end Engine.Literal

/-! ### One field -/

/-- The field is dealt with by what the object says: it says nothing and the field need not be set, or what
it says is converted and stored. -/
inductive OwnConverts (call : Caller) (o : ObjectId) (r : Ref) :
    Field HostType × Nat → Machine → Machine → Prop where
  | unset {f : Field HostType} {i : Nat} {m : Machine} (habsent : (m.ownValue o f.name).isPresent = false)
      (hoptional : f.attributes.isOptional = true) : OwnConverts call o r (f, i) m m
  | stored {f : Field HostType} {i : Nat} {m m₁ : Machine} {s : Ref} {heap : Heap}
      (hpresent : (m.ownValue o f.name).isPresent = true)
      (hconvert : Succeeds call m (toHost f.type (m.ownValue o f.name)) s m₁)
      (hstore : m₁.heap.setField r i (some s) = .ok heap) :
      OwnConverts call o r (f, i) m { m₁ with heap }

/-- What the field is at fault for: the object says nothing and the field is required, or what it says does
not convert. -/
inductive OwnFails (call : Caller) (o : ObjectId) (record : String) (f : Field HostType) (m : Machine) :
    ConversionFault → Machine → Prop where
  | missing (habsent : (m.ownValue o f.name).isPresent = false)
      (hrequired : f.attributes.isOptional = false) :
      OwnFails call o record f m (.missingField record f.name) m
  | within {cause : ConversionFault} {m' : Machine} (hpresent : (m.ownValue o f.name).isPresent = true)
      (hthrows : Throws call m (toHost f.type (m.ownValue o f.name)) cause m') :
      OwnFails call o record f m (.inField f.name cause) m'

/-- What becomes of the slot of the field. -/
inductive OwnSlot (call : Caller) (o : ObjectId) (f : Field HostType) (m : Machine) : Option Ref → Prop where
  | unset (habsent : (m.ownValue o f.name).isPresent = false)
      (hoptional : f.attributes.isOptional = true) : OwnSlot call o f m none
  | converted {s : Ref} {m' : Machine} (hpresent : (m.ownValue o f.name).isPresent = true)
      (hconvert : Succeeds call m (toHost f.type (m.ownValue o f.name)) s m') :
      OwnSlot call o f m (some s)

theorem Engine.Literal.converts_iff (h : m.Literal fields o) (hf : x.1 ∈ fields) :
    FieldConverts call o r x m m' ↔ OwnConverts call o r x m m' := by
  have hown := h.reads call hf
  constructor
  · intro hconverts
    cases hconverts with
    | unset hread habsent hoptional =>
        obtain ⟨rfl, rfl⟩ := Succeeds.unique (Succeeds.routine hread) (Succeeds.routine hown)
        exact .unset habsent hoptional
    | stored hread hpresent hconvert hstore =>
        obtain ⟨rfl, rfl⟩ := Succeeds.unique (Succeeds.routine hread) (Succeeds.routine hown)
        exact .stored hpresent hconvert hstore
  · intro hconverts
    cases hconverts with
    | unset habsent hoptional => exact .unset hown habsent hoptional
    | stored hpresent hconvert hstore => exact .stored hown hpresent hconvert hstore

/-- What the host is asked to store it stores. -/
theorem Engine.Literal.throws_iff {slots : List (Option Ref)} {i : Nat} (h : m.Literal fields o)
    (hfilling : m.Filling r (.record descriptor record fields) (.record slots)) (hf : fields[i]? = some f) :
    Throws (invoke n) m (fieldRound o record r (f, i)) fault m' ↔
      OwnFails (invoke n) o record f m fault m' := by
  have hown := h.reads (invoke n) (List.mem_of_getElem? hf)
  rw [throws_fieldRound_iff]
  constructor
  · intro hthrows
    cases hthrows with
    | unread hunread => exact absurd hunread (Succeeds.routine hown).not_throws
    | missing hread habsent hrequired =>
        obtain ⟨rfl, rfl⟩ := Succeeds.unique (Succeeds.routine hread) (Succeeds.routine hown)
        exact .missing habsent hrequired
    | within hread hpresent hthrows =>
        obtain ⟨rfl, rfl⟩ := Succeeds.unique (Succeeds.routine hread) (Succeeds.routine hown)
        exact .within hpresent hthrows
    | refused hread _ hconvert hrefused =>
        obtain ⟨rfl, rfl⟩ := Succeeds.unique (Succeeds.routine hread) (Succeeds.routine hown)
        obtain ⟨hspares, hs⟩ := hfilling.secludes.conversion hconvert
        obtain ⟨g, hset, -⟩ := (hfilling.spared hspares).setField hf hs
        cases hset.symm.trans hrefused
  · intro hfails
    cases hfails with
    | missing habsent hrequired => exact .missing hown habsent hrequired
    | within hpresent hthrows => exact .within hown hpresent hthrows

/-- Literals that say the same of a field are the same to its round. -/
theorem Engine.Literal.round_run (h : m.Literal fields o) (h' : m.Literal fields o') (hf : x.1 ∈ fields)
    (hsame : m.ownValue o' x.1.name = m.ownValue o x.1.name) :
    ((fieldRound o' record r x).run.run call).run m = ((fieldRound o record r x).run.run call).run m := by
  have hread := h'.reads call hf
  rw [hsame] at hread
  rw [fieldRound, fieldRound, (Succeeds.routine hread).bind_run,
    (Succeeds.routine (h.reads call hf)).bind_run]

/-- Its own slot changes with the field, and no other. -/
theorem OwnConverts.fills {slots : List (Option Ref)} {i : Nat}
    (hfilling : m.Filling r (.record descriptor record fields) (.record slots)) (hf : fields[i]? = some f)
    (h : OwnConverts (invoke n) o r (f, i) m m') :
    ∃ slots', m'.Filling r (.record descriptor record fields) (.record slots') ∧
      (∀ j, j ≠ i → slots'[j]? = slots[j]?) ∧
      (slots[i]? = some none → ∃ slot, OwnSlot (invoke n) o f m slot ∧ slots'[i]? = some slot) := by
  cases h with
  | unset habsent hoptional =>
      exact ⟨slots, hfilling, fun _ _ => rfl, fun hi => ⟨_, .unset habsent hoptional, hi⟩⟩
  | @stored _ _ _ m₁ s _ hpresent hconvert hstore =>
      obtain ⟨hspares, hs⟩ := hfilling.secludes.conversion hconvert
      obtain ⟨g, hset, hset'⟩ := (hfilling.spared hspares).setField hf hs
      obtain rfl := Except.ok.inj (hset.symm.trans hstore)
      refine ⟨_, hset', fun j hj => List.getElem?_set_ne hj.symm, fun hi => ?_⟩
      obtain ⟨hlt, -⟩ := List.getElem?_eq_some_iff.mp hi
      exact ⟨some s, .converted hpresent hconvert, List.getElem?_set_self hlt⟩

/-! ### Literals without objects -/

/-- The values of all properties of the object are no objects. -/
def Engine.Scalars (e : Engine) (o : ObjectId) : Prop :=
  ∀ q ∈ (e.object o).properties, ∀ v ∈ q.2.value?, v.object? = none

/-- What such an object says is no object. -/
theorem Engine.Literal.ownValue_scalar {e : Engine} (h : e.Literal fields o) (hscalars : e.Scalars o)
    (name : String) : (e.ownValue o name).object? = none := by
  rw [Engine.ownValue]
  cases hown : (e.object o).own? (.name name) with
  | none => rfl
  | some p =>
      rw [Option.bind_some]
      cases hvalue : p.value? with
      | none => rfl
      | some v => exact hscalars _ (h.mem_properties hown) v hvalue

/-- While such a literal is converted, nothing is called. -/
theorem Engine.Literal.rounds_engine_eq {xs : List (Field HostType × Nat)} (h : m.Literal fields o)
    (hscalars : m.Scalars o) (hxs : ∀ x ∈ xs, x.1 ∈ fields)
    (hrounds : Rounds (FieldConverts call o r) xs m m') : m'.toEngine = m.toEngine := by
  induction hrounds with
  | nil => rfl
  | @cons x rest m m₁ m' hfirst _ ih =>
      have hengine : m₁.toEngine = m.toEngine := by
        cases (h.converts_iff (hxs x List.mem_cons_self)).mp hfirst with
        | unset => rfl
        | stored _ hconvert _ =>
            have hconverted := toHost_engine_eq (h.ownValue_scalar hscalars _) hconvert
            exact hconverted
      have hrest := ih (hengine ▸ h) (hengine ▸ hscalars) fun y hy => hxs y (List.mem_cons_of_mem x hy)
      exact hrest.trans hengine

/-- So it stays a literal. -/
theorem Engine.Literal.lasts_of_scalars (h : m.Literal fields o) (hscalars : m.Scalars o)
    (hat : AtField call m descriptor record fields (.object o) o x m₁) : m₁.Literal fields o := by
  obtain ⟨hbegins, hsplit, hdone⟩ := hat
  obtain ⟨-, rfl⟩ := (h.begins call descriptor record).unheld.unique hbegins.unheld
  have hopened : (m.opened (.record descriptor record fields)).Literal fields o := h
  have hengine := hopened.rounds_engine_eq hscalars (fun y hy => ?_) hdone
  · exact hengine ▸ h
  · have hmem : y ∈ fields.zipIdx := hsplit ▸ List.mem_append_left _ hy
    exact List.mem_of_getElem? (List.mem_zipIdx_iff_getElem?.mp hmem)

/-! ### All fields -/

/-- The fields are dealt with one after the other: the slots of the others are left. -/
theorem fills_rounds {xs : List (Field HostType × Nat)} {slots : List (Option Ref)}
    (hfilling : m.Filling r (.record descriptor record fields) (.record slots))
    (hxs : ∀ f i, (f, i) ∈ xs → fields[i]? = some f)
    (h : Rounds (OwnConverts (invoke n) o r) xs m m') :
    ∃ slots', m'.Filling r (.record descriptor record fields) (.record slots') ∧
      ∀ j, (∀ f, (f, j) ∉ xs) → slots'[j]? = slots[j]? := by
  induction xs generalizing m slots with
  | nil =>
      cases h
      exact ⟨slots, hfilling, fun _ _ => rfl⟩
  | cons x xs ih =>
      obtain ⟨f, i⟩ := x
      cases h with
      | cons hfirst hrest =>
          obtain ⟨slots₁, hfilling₁, hothers, -⟩ := hfirst.fills hfilling (hxs f i List.mem_cons_self)
          obtain ⟨slots₂, hfilling₂, hlater⟩ :=
            ih hfilling₁ (fun g j hg => hxs g j (List.mem_cons_of_mem _ hg)) hrest
          refine ⟨slots₂, hfilling₂, fun j hj => (hlater j fun g hg => ?_).trans (hothers j ?_)⟩
          · exact hj g (List.mem_cons_of_mem _ hg)
          · rintro rfl
            exact hj f List.mem_cons_self

/-- A literal that says nothing of the fields, and need not, leaves them unset. -/
theorem unset_rounds {xs : List (Field HostType × Nat)}
    (hxs : ∀ x ∈ xs, x.1.attributes.isOptional = true ∧ (m.object o).own? (.name x.1.name) = none) :
    Rounds (OwnConverts call o r) xs m m := by
  induction xs with
  | nil => exact .nil
  | cons x xs ih =>
      obtain ⟨hoptional, hown⟩ := hxs x List.mem_cons_self
      have habsent : (m.ownValue o x.1.name).isPresent = false := by
        rw [Engine.ownValue, hown]
        rfl
      exact .cons (.unset habsent hoptional) (ih fun y hy => hxs y (List.mem_cons_of_mem x hy))

/-- No two fields have one slot. -/
theorem notMem_of_zipIdx {done rest : List (Field HostType × Nat)} {i : Nat}
    (hsplit : fields.zipIdx = done ++ (f, i) :: rest) (g : Field HostType) :
    (g, i) ∉ done ∧ (g, i) ∉ rest := by
  have hnodup : (fields.zipIdx.map (·.2)).Nodup := by
    rw [List.zipIdx_map_snd]
    exact List.nodup_range'
  rw [hsplit, List.map_append, List.map_cons, List.nodup_middle, List.nodup_cons, List.mem_append,
    not_or] at hnodup
  exact ⟨fun hg => hnodup.1.1 (List.mem_map.mpr ⟨_, hg, rfl⟩),
    fun hg => hnodup.1.2 (List.mem_map.mpr ⟨_, hg, rfl⟩)⟩

/-- What an object literal says itself decides what its conversion to a record comes to. -/
structure OwnDecides (n : Nat) (m : Machine) (descriptor : Nat) (record : String)
    (fields : List (Field HostType)) (o : ObjectId) : Prop where
  /-- The conversion succeeds if every field is dealt with by what the object says. -/
  succeeds_iff : ∀ r m', Succeeds (invoke n) m (toHost (.record descriptor record fields) (.object o)) r m' ↔
    r = m.heap.cells.size ∧ Rounds (OwnConverts (invoke n) o m.heap.cells.size) fields.zipIdx
      (m.opened (.record descriptor record fields)) m'
  /-- It fails at the first field that is at fault. -/
  throws_iff : ∀ fault m',
    Throws (invoke n) m (toHost (.record descriptor record fields) (.object o)) fault m' ↔
      ∃ f i m₁, UpTo (OwnConverts (invoke n) o m.heap.cells.size) fields.zipIdx (f, i)
        (m.opened (.record descriptor record fields)) m₁ ∧ OwnFails (invoke n) o record f m₁ fault m'
  /-- A field is unset or is the conversion of what the object says of it. -/
  slots : ∀ r m', Succeeds (invoke n) m (toHost (.record descriptor record fields) (.object o)) r m' →
    ∃ slots, m'.heap.cell r = ⟨.record descriptor record fields, .record slots⟩ ∧
      ∀ i f, fields[i]? = some f → ∃ m₁ slot,
        UpTo (OwnConverts (invoke n) o m.heap.cells.size) fields.zipIdx (f, i)
          (m.opened (.record descriptor record fields)) m₁ ∧
        OwnSlot (invoke n) o f m₁ slot ∧ slots[i]? = some slot
  /-- Another literal that says the same of the fields is converted alike, whatever else it says. -/
  extras : ∀ o', m.Literal fields o' →
    (∀ x m₁, AtField (invoke n) m descriptor record fields (.object o) o x m₁ →
      m₁.Literal fields o' ∧ m₁.ownValue o' x.1.name = m₁.ownValue o x.1.name) →
    ((toHost (.record descriptor record fields) (.object o')).run.run (invoke n)).run m =
      ((toHost (.record descriptor record fields) (.object o)).run.run (invoke n)).run m
  /-- A record is left blank if all fields are optional and the object has a property for none. -/
  blank : (∀ f ∈ fields, f.attributes.isOptional = true ∧ (m.object o).own? (.name f.name) = none) →
    Succeeds (invoke n) m (toHost (.record descriptor record fields) (.object o)) m.heap.cells.size
      (m.opened (.record descriptor record fields))

section

variable (hliteral : m.Literal fields o)
  (hlasts : ∀ x m₁, AtField (invoke n) m descriptor record fields (.object o) o x m₁ → m₁.Literal fields o)

include hliteral hlasts

/-- As far as the loop comes, a field is dealt with by what the object says. -/
theorem turns_own (x : Field HostType × Nat) (m₁ : Machine)
    (hx : UpTo (FieldConverts (invoke n) o m.heap.cells.size) fields.zipIdx x
      (m.opened (.record descriptor record fields)) m₁) (m₂ : Machine) :
    FieldConverts (invoke n) o m.heap.cells.size x m₁ m₂ ↔
      OwnConverts (invoke n) o m.heap.cells.size x m₁ m₂ := by
  have hf : x.1 ∈ fields := List.mem_of_getElem? (List.mem_zipIdx_iff_getElem?.mp hx.mem)
  exact (hlasts x m₁ (.intro (hliteral.begins (invoke n) descriptor record) hx)).converts_iff hf

theorem own_succeeds_iff :
    Succeeds (invoke n) m (toHost (.record descriptor record fields) (.object o)) r m' ↔
    r = m.heap.cells.size ∧ Rounds (OwnConverts (invoke n) o m.heap.cells.size) fields.zipIdx
      (m.opened (.record descriptor record fields)) m' := by
  have hbegins := hliteral.begins (invoke n) descriptor record
  have hfields : Succeeds (invoke n) (m.opened (.record descriptor record fields))
      (fields.zipIdx.forM (fieldRound o record m.heap.cells.size)) () m' ↔ _ :=
    succeeds_forM_iff succeeds_fieldRound_iff
  rw [← Rounds.congr (turns_own hliteral hlasts), ← hfields, Succeeds, hbegins.run rfl]
  constructor
  · intro h
    obtain ⟨⟨⟩, m₁, hfill, hpure⟩ := Succeeds.of_bind h
    obtain ⟨rfl, rfl⟩ := Succeeds.pure.unique hpure
    exact ⟨rfl, hfill⟩
  · rintro ⟨rfl, hfill⟩
    exact Succeeds.bind hfill .pure

end

section

variable (hm : m.Sound)

include hm

/-- The slots of fields whose turn has not come are empty. -/
theorem filling_rounds {xs : List (Field HostType × Nat)}
    (hxs : ∀ f i, (f, i) ∈ xs → fields[i]? = some f)
    (hrounds : Rounds (OwnConverts (invoke n) o m.heap.cells.size) xs
      (m.opened (.record descriptor record fields)) m₁) :
    ∃ slots, m₁.Filling m.heap.cells.size (.record descriptor record fields) (.record slots) ∧
      ∀ i, (∀ f, (f, i) ∉ xs) → slots[i]? = (List.replicate fields.length none)[i]? :=
  fills_rounds (.opened hm.kin (Heap.checkContent_record descriptor record fields) (Content.blank_record _))
    hxs hrounds

theorem own_slots
    (hrounds : Rounds (OwnConverts (invoke n) o m.heap.cells.size) fields.zipIdx
      (m.opened (.record descriptor record fields)) m') :
    ∃ slots, m'.heap.cell m.heap.cells.size = ⟨.record descriptor record fields, .record slots⟩ ∧
      ∀ i f, fields[i]? = some f → ∃ m₁ slot,
        UpTo (OwnConverts (invoke n) o m.heap.cells.size) fields.zipIdx (f, i)
          (m.opened (.record descriptor record fields)) m₁ ∧
        OwnSlot (invoke n) o f m₁ slot ∧ slots[i]? = some slot := by
  have hall : ∀ f i, (f, i) ∈ fields.zipIdx → fields[i]? = some f := fun f i hf =>
    List.mem_zipIdx_iff_getElem?.mp hf
  obtain ⟨slots, hfilled, -⟩ := filling_rounds hm hall hrounds
  refine ⟨slots, hfilled.cell_eq, fun i f hf => ?_⟩
  -- the slot is empty until the turn of its field comes, and no later field has it
  have hmem : (f, i) ∈ fields.zipIdx := List.mem_zipIdx_iff_getElem?.mpr hf
  obtain ⟨done, rest, hsplit⟩ := List.append_of_mem hmem
  have hown := notMem_of_zipIdx hsplit
  rw [hsplit] at hrounds hall
  obtain ⟨m₁, hdone, hturn⟩ := Rounds.append_iff.mp hrounds
  cases hturn with
  | cons hfirst hrest =>
      obtain ⟨before, hbefore, hempty⟩ :=
        filling_rounds hm (fun g j hg => hall g j (List.mem_append_left _ hg)) hdone
      have hnone : before[i]? = some none := by
        rw [hempty i fun g => (hown g).1, List.getElem?_replicate,
          if_pos (List.getElem?_eq_some_iff.mp hf).1]
      obtain ⟨after, hafter, -, hslot⟩ := hfirst.fills hbefore hf
      obtain ⟨slot, hbecomes, hat⟩ := hslot hnone
      obtain ⟨slots', hfilled', hlater⟩ := fills_rounds hafter
        (fun g j hg => hall g j (List.mem_append_right _ (List.mem_cons_of_mem _ hg))) hrest
      have hsame := congrArg Cell.content (hfilled.cell_eq.symm.trans hfilled'.cell_eq)
      obtain rfl : slots = slots' := HostView.Content.record.inj hsame
      refine ⟨m₁, slot, .intro hsplit hdone, hbecomes, ?_⟩
      rw [hlater i fun g => (hown g).2, hat]

variable (hliteral : m.Literal fields o)
  (hlasts : ∀ x m₁, AtField (invoke n) m descriptor record fields (.object o) o x m₁ → m₁.Literal fields o)

include hliteral hlasts

/-- When its turn comes, a field is at fault by what the object says. -/
theorem turn_throws_iff {i : Nat}
    (hx : UpTo (FieldConverts (invoke n) o m.heap.cells.size) fields.zipIdx (f, i)
      (m.opened (.record descriptor record fields)) m₁) :
    Throws (invoke n) m₁ (fieldRound o record m.heap.cells.size (f, i)) fault m' ↔
      OwnFails (invoke n) o record f m₁ fault m' := by
  have hliteral₁ := hlasts _ m₁ (.intro (hliteral.begins (invoke n) descriptor record) hx)
  obtain ⟨hsplit, hdone⟩ := (UpTo.congr (turns_own hliteral hlasts)).mp hx
  have hbefore : ∀ g j, (g, j) ∈ _ → fields[j]? = some g := fun g j hg =>
    List.mem_zipIdx_iff_getElem?.mp (hsplit ▸ List.mem_append_left _ hg)
  obtain ⟨slots, hfilling, -⟩ := filling_rounds hm hbefore hdone
  exact hliteral₁.throws_iff hfilling (List.mem_zipIdx_iff_getElem?.mp hx.mem)

end

/-- Where no field's name is inherited from the prototype of plain objects, what an object literal says itself
decides what its conversion to a record comes to, as long as it stays a literal whatever is called
meanwhile. -/
theorem own_properties_decide (hm : m.Sound) (hliteral : m.Literal fields o)
    (hlasts : ∀ x m₁, AtField (invoke n) m descriptor record fields (.object o) o x m₁ →
      m₁.Literal fields o) : OwnDecides n m descriptor record fields o where
  succeeds_iff r m' := own_succeeds_iff hliteral hlasts
  throws_iff fault m' := by
    rw [(hliteral.begins (invoke n) descriptor record).throws_iff rfl]
    refine (throws_forM_iff succeeds_fieldRound_iff).trans ?_
    constructor
    · rintro ⟨⟨f, i⟩, m₁, hx, hthrows⟩
      exact ⟨f, i, m₁, (UpTo.congr (turns_own hliteral hlasts)).mp hx,
        (turn_throws_iff hm hliteral hlasts hx).mp hthrows⟩
    · rintro ⟨f, i, m₁, hown, hfails⟩
      have hx := (UpTo.congr (turns_own hliteral hlasts)).mpr hown
      exact ⟨(f, i), m₁, hx, (turn_throws_iff hm hliteral hlasts hx).mpr hfails⟩
  slots r m' h := by
    obtain ⟨rfl, hrounds⟩ := (own_succeeds_iff hliteral hlasts).mp h
    exact own_slots hm hrounds
  extras o' hliteral' hsame := by
    have hbegins := hliteral.begins (invoke n) descriptor record
    rw [(hliteral'.begins (invoke n) descriptor record).run rfl, hbegins.run rfl]
    refine run_bind_congr (Eq.symm ?_)
    refine forM_run_congr succeeds_fieldRound_iff fun x m₁ hx => ?_
    have hat := AtField.intro hbegins hx
    have hf : x.1 ∈ fields := List.mem_of_getElem? (List.mem_zipIdx_iff_getElem?.mp hx.mem)
    obtain ⟨hliteral₁, hsays⟩ := hsame x m₁ hat
    exact ((hlasts x m₁ hat).round_run hliteral₁ hf hsays).symm
  blank hblank := by
    refine (own_succeeds_iff hliteral hlasts).mpr ⟨rfl, unset_rounds fun x hx => hblank x.1 ?_⟩
    exact List.mem_of_getElem? (List.mem_zipIdx_iff_getElem?.mp hx)

/-- An engine with an object literal that has the given properties. The prototype of plain objects has a
constructor, and the getter that reads the prototype of an object. -/
def literalEngine (properties : List (Key × Property)) : Engine :=
  let function (f : Callable) (constructs : Bool) : Object := ⟨.function f constructs, none, true, []⟩
  ⟨#[⟨.ordinary, none, true, [(.name "constructor", .hidden (.object 2)),
        (.name "__proto__", .accessor (some 3) none false true)]⟩,
      ⟨.ordinary, some Intrinsic.object, true, properties⟩, function (.trap .get) true,
      function (.builtin (.object .readProto)) false], 0, []⟩

/-- A note that may be missing, and a name. -/
def noteFields : List (Field HostType) :=
  [⟨"note", .atom .string, .optional⟩, ⟨"name", .atom .string, .none⟩]

theorem literalEngine_lacks (properties : List (Key × Property)) {k : Key}
    (hk : k ∉ [Key.name "constructor", .name "__proto__"]) : (literalEngine properties).Lacks k := by
  refine .some (Nat.succ_pos 3) nofun rfl ?_ .none
  refine List.lookup_eq_none_iff.mpr fun q hq => bne_iff_ne.mpr ?_
  rintro rfl
  exact hk (List.mem_map_of_mem hq)

/-- The literal has a name, no note, and something else. -/
def namedMachine : Machine :=
  ⟨literalEngine [(.name "name", .plain (.string "a")), (.name "size", .plain (.int 1))], .start ⟨#[]⟩⟩

theorem namedMachine_literal : namedMachine.Literal noteFields 1 := by
  refine ⟨rfl, rfl, fun k p hp => ?_, ⟨by decide, literalEngine_lacks _ (by decide)⟩, fun f hf => ?_⟩
  · have hmem : (k, p) ∈ [(Key.name "name", Property.plain (.string "a")), (.name "size", .plain (.int 1))] :=
      hp
    simp only [List.mem_cons, List.not_mem_nil, or_false, Prod.mk.injEq] at hmem
    rcases hmem with ⟨-, rfl⟩ | ⟨-, rfl⟩
    · exact ⟨_, _, _, _, rfl, nofun⟩
    · exact ⟨_, _, _, _, rfl, nofun⟩
  · refine literalEngine_lacks _ ?_
    simp only [noteFields, List.mem_cons, List.not_mem_nil, or_false] at hf
    rcases hf with rfl | rfl
    · decide
    · decide

theorem own_properties_decide_note :
    namedMachine.Sound ∧ namedMachine.Literal noteFields 1 ∧
      OwnDecides 9 namedMachine 0 "entry" noteFields 1 ∧
      ((namedMachine.act 9 (toHost (.record 0 "entry" noteFields) (.object 1))).1 = .ok 0) := by
  have hm : namedMachine.Sound := sound_start (by decide)
  have hscalars : namedMachine.Scalars 1 := by
    unfold Engine.Scalars
    decide
  exact ⟨hm, namedMachine_literal, own_properties_decide hm namedMachine_literal fun x m₁ =>
    namedMachine_literal.lasts_of_scalars hscalars, by decide +kernel⟩

/-- A field that the empty object lacks is taken from the prototype of plain objects: an optional one does not
convert, and a required one is not missing. -/
theorem empty_object_inherits :
    let m : Machine := ⟨literalEngine [], .start ⟨#[]⟩⟩
    let part : HostType := .record 1 "part" [⟨"x", .atom .int, .optional⟩]
    m.Sound ∧ (m.object 1).properties = [] ∧ (m.object 1).proto = some Intrinsic.object ∧
      (∃ m', Throws (invoke 9) m
        (toHost (.record 0 "r" [⟨"constructor", .atom .string, .optional⟩]) (.object 1))
        (.inField "constructor" (.mismatch "string" "constructor")) m') ∧
      ∃ r m', Succeeds (invoke 9) m
        (toHost (.record 0 "r" [⟨"__proto__", part, .none⟩]) (.object 1)) r m' := by
  intro m part
  have hfault : (m.act 9 (toHost (.record 0 "r" [⟨"constructor", .atom .string, .optional⟩])
      (.object 1))).1 = .error (.inField "constructor" (.mismatch "string" "constructor")) := by
    decide +kernel
  have hresult : (m.act 9 (toHost (.record 0 "r" [⟨"__proto__", part, .none⟩]) (.object 1))).1 = .ok 0 := by
    decide +kernel
  exact ⟨sound_start (by decide), rfl, rfl, ⟨_, Prod.ext hfault rfl⟩, _, _, Prod.ext hresult rfl⟩

end HostView.Script
