import HostView.Proofs.Exposure.NormalForm
import HostView.Proofs.Exposure.Pruning

/-! # Walks into host values

A script that is shown a host value can go on into it, from a record or table to what it has at a
name and from an array to an item. What the script finds on such a path is what the host has there,
shown under the same mask; and what is found under a mask is found under every smaller one.
-/

namespace HostView

/-- A step into a value. -/
inductive Step where
  | member (name : String)
  | item (index : Nat)

/-- What is found in a value: a host value, the presence of a member in a set, or an unset item. -/
inductive Sight where
  | value (r : Ref)
  | present
  | unset

/-- What is found at the key of an entry. -/
def Entry.sight (e : Entry) : Sight :=
  match e.yield with
  | some v => .value v
  | none => .present

/-- What is found in an item of a vector. -/
def Sight.ofItem : Option Ref → Sight
  | some v => .value v
  | none => .unset

variable {h : Heap} {mask mask₁ mask₂ : Mask} {r : Ref} {step : Step} {path : List Step}
  {s t : Sight} {name : String}

namespace Script

/-- The exposed field of a name is exposed under a smaller mask, too. -/
theorem exposedAt?_of_le {fields : List (Field HostType)} {x : Nat × Field HostType}
    (hmasks : mask₁ ≤ mask₂) (hx : exposedAt? mask₂ fields name = some x) :
    exposedAt? mask₁ fields name = some x := by
  obtain ⟨offset, hoffset, hfield⟩ := Option.bind_eq_some_iff.mp hx
  obtain ⟨f, hf, hexposed⟩ := Option.bind_eq_some_iff.mp hfield
  obtain ⟨hexposes, heq⟩ := Option.ite_none_right_eq_some.mp hexposed
  refine Option.bind_eq_some_iff.mpr ⟨offset, hoffset, Option.bind_eq_some_iff.mpr ⟨f, hf, ?_⟩⟩
  rw [if_pos (Mask.exposes_of_le hmasks hexposes), heq]

theorem heldAt?_of_le {fields : List (Field HostType)} {slots : List (Option Ref)}
    (hmasks : mask₁ ≤ mask₂) (hheld : heldAt? mask₂ fields slots name = some r) :
    heldAt? mask₁ fields slots name = some r := by
  obtain ⟨x, hx, hslot⟩ := Option.bind_eq_some_iff.mp hheld
  rw [heldAt?, exposedAt?_of_le hmasks hx, Option.bind_some, hslot]

end Script

namespace Heap

/-- Where a step into a host value leads, among what a mask exposes of it. -/
def stepInto? (h : Heap) (mask : Mask) (r : Ref) : Step → Option Sight
  | .member name =>
    match h.cell r with
    | ⟨.record _ _ fields, .record slots⟩ => (Script.heldAt? mask fields slots name).map .value
    | ⟨.table key _, .table entries⟩ =>
      ((key.keyOfName name).toOption.bind entries.find?).map Entry.sight
    | _ => none
  | .item index =>
    match h.cell r with
    | ⟨.vector _, .vector slots⟩ => slots[index]?.map .ofItem
    | _ => none

/-- Where a step leads from what is found. -/
def stepFrom? (h : Heap) (mask : Mask) (step : Step) : Sight → Option Sight
  | .value r => h.stepInto? mask r step
  | .present | .unset => none

/-- What is found at the end of a path. -/
def sightAt? (h : Heap) (mask : Mask) : List Step → Sight → Option Sight
  | [], s => some s
  | step :: path, s => (h.stepFrom? mask step s).bind (h.sightAt? mask path)

/-- A step that is open under a mask is open under a smaller one, and leads to the same. -/
theorem stepInto?_of_le (hmasks : mask₁ ≤ mask₂) (ht : h.stepInto? mask₂ r step = some t) :
    h.stepInto? mask₁ r step = some t := by
  cases step with
  | item => exact ht
  | member name =>
      unfold stepInto? at ht ⊢
      dsimp only at ht ⊢
      split at ht
      next =>
        obtain ⟨v, hheld, rfl⟩ := Option.map_eq_some_iff.mp ht
        rw [Script.heldAt?_of_le hmasks hheld]
        rfl
      next => exact ht
      next => cases ht

/-- What is found on a path under a mask is found there under a smaller one. -/
theorem sightAt?_of_le (hmasks : mask₁ ≤ mask₂) (ht : h.sightAt? mask₂ path s = some t) :
    h.sightAt? mask₁ path s = some t := by
  induction path generalizing s with
  | nil => exact ht
  | cons step path ih =>
      obtain ⟨next, hnext, hrest⟩ := Option.bind_eq_some_iff.mp ht
      have hstep : h.stepFrom? mask₁ step s = some next := by
        cases s with
        | value r => exact stepInto?_of_le hmasks hnext
        | present | unset => cases hnext
      rw [sightAt?, hstep, Option.bind_some, ih hrest]

end Heap

namespace Script

variable {call : Caller} {m m' : Machine} {low limit : Nat} {o target : ObjectId} {v : Value}

/-! ### What scripts do -/

/-- Reads what a live value has at a name, if it has the name. -/
def memberOf (target : ObjectId) (name : String) : Action (Option Value) := do
  if ← hostHas target (.name name) then
    match ← hostGet target (.name name) with
    | .value v => return some v
    | .inherited => return none
  else return none

/-- Goes from a live value to what it has at a name, or from an array to one of its items. -/
def takeStep : Step → Value → Action (Option Value)
  | .member name, .object o => do
    match (← get).live? o with
    | some (target, _) => memberOf target name
    | none => return none
  | .item index, .object o => do
    match ((← get).object o).kind with
    | .array length _ =>
      if index < length then return some (← getProperty o (.item index)) else return none
    | _ => return none
  | _, _ => return none

/-- Goes along a path from a value. -/
def walk : List Step → Value → Action (Option Value)
  | [], v => return some v
  | step :: path, v => do
    match ← takeStep step v with
    | some w => walk path w
    | none => return none

/-! ### What stands for what is found -/

/-- The script value stands for what is found in a host value that is regular. -/
def Shows (m : Machine) (h : Heap) (mask : Mask) (v : Value) : Sight → Prop
  | .value r => (Image.of h r).Regular ∧ Represents m h mask 0 v r
  | .present => v = .bool true
  | .unset => v = .undefined

/-- The action gives what stands for what is found, if anything is. -/
def Finds (call : Caller) (m : Machine) (h : Heap) (mask : Mask) (a : Action (Option Value))
    (found : Option Sight) : Prop :=
  ∃ w m', Succeeds call m a w m' ∧ m.Grows (fun _ => True) m' ∧
    Option.Rel (Shows m' h mask) w found

/-- Machines on which the values of a heap can be shown and gone into. -/
structure Machine.Presents (m : Machine) (h : Heap) (limit : Nat) : Prop where
  heap_eq : m.heap = h
  wellTyped : h.WellTyped
  ready : m.Ready limit
  coherent : m.Coherent

namespace Machine.Presents

theorem grows (hm : m.Presents h limit) (hgrows : m.Grows (fun _ => True) m') :
    m'.Presents h limit :=
  ⟨hgrows.heap.trans hm.heap_eq, hm.wellTyped, hm.ready.grows hgrows fun _ _ => trivial,
    hgrows.layouts hm.coherent⟩

/-- A regular value is shown. -/
theorem shows (hm : m.Presents h limit) (hregular : (Image.of h r).Regular) (call : Caller)
    (mask : Mask) :
    ∃ v m', Succeeds call m (wrapValue mask r) v m' ∧ m.Grows (fun _ => True) m' ∧
      Shows m' h mask v (.value r) := by
  obtain ⟨rfl, hh, hready, -⟩ := hm
  have hexposes : @Exposes mask call m (wrapValue mask r) r :=
    wrapValue_shows hh hready (hh.short_of_regular (Nat.le_add_left _ _) hregular)
  obtain ⟨v, m', hshow, hgrows, hv⟩ := hexposes
  have hv' : Represents m' m.heap mask 0 v r := hv.mono (.refl _) (.refl _) (Nat.zero_le _)
  exact ⟨v, m', hshow, hgrows, hregular, hv'⟩

end Machine.Presents

/-- An object before that of a wrap stands for a record or table. -/
theorem Represents.live (hv : Represents m m.heap mask low v r)
    (hkind : WrapKind.of (m.heap.typeOf r) ≠ .bare) :
    ∃ o target, v = .object o ∧ m.Wraps target r mask ∧
      m.live? o = some (target, ⟨r, mask, WrapKind.of (m.heap.typeOf r)⟩) := by
  cases hv with
  | @held _ o target w state _ _ _ hlt _ hobject htarget hwrap =>
      have hw : m.Wraps target r mask := ⟨hlt, w, state, htarget, hwrap⟩
      exact ⟨o, target, rfl, hw, hw.live?_eq hobject⟩
  | atom hcell | port hcell | real hcell | vector hcell =>
      rw [Heap.typeOf, hcell] at hkind
      exact absurd rfl hkind

/-- A primitive value stands for an atom, or a copy for a port. -/
theorem Represents.atom_cases (hv : Represents m h mask low v r) {τ : AtomType} {a : Atom}
    (hcell : h.cell r = ⟨.atom τ, .atom a⟩) :
    shownAs? τ a = some v ∨ ∃ p o, a = .port p ∧ v = .object o ∧ m.object o = .plainWith
      [("port", .ofInt p.number.toNat), ("proto", .string p.protocol.render)] := by
  cases hv with
  | atom hcell' hvalue =>
      cases hcell.symm.trans hcell'
      exact .inl hvalue
  | @port _ _ p o hcell' _ _ hobject =>
      cases hcell.symm.trans hcell'
      exact .inr ⟨p, o, rfl, rfl, hobject⟩
  | real hcell' | vector hcell' => cases hcell.symm.trans hcell'
  | held _ _ _ _ hkind =>
      rw [Heap.typeOf, hcell] at hkind
      exact absurd rfl hkind

theorem Represents.eq_ofReal (hv : Represents m h mask low v r) {kind : RealKind} {x : Binary64}
    (hcell : h.cell r = ⟨.real kind, .real kind x⟩) : v = .ofReal x := by
  cases hv with
  | real hcell' =>
      cases hcell.symm.trans hcell'
      rfl
  | atom hcell' | port hcell' | vector hcell' => cases hcell.symm.trans hcell'
  | held _ _ _ _ hkind =>
      rw [Heap.typeOf, hcell] at hkind
      exact absurd rfl hkind

/-- An array of what stands for its items stands for a vector. -/
theorem Represents.array (hv : Represents m h mask low v r) {type : HostType}
    {slots : List (Option Ref)} (hcell : h.cell r = ⟨.vector type, .vector slots⟩) :
    ∃ o items, v = .object o ∧ o < m.objects.size ∧ m.object o = .arrayWith items ∧
      items.length = slots.length ∧ ∀ (i : Nat) (v : Value) (slot : Option Ref),
        items[i]? = some v → slots[i]? = some slot → RepresentsSlot m h mask low v slot := by
  cases hv with
  | @vector _ _ slots' o items hcell' _ hlt hobject hsize hunset hitems =>
      obtain ⟨-, rfl⟩ : type = _ ∧ slots = slots' := by
        rw [hcell] at hcell'
        simpa using hcell'
      refine ⟨o, items, rfl, hlt, hobject, hsize, fun i v slot hv hslot => ?_⟩
      cases slot with
      | none => exact hunset i v hv hslot
      | some s => exact hitems i v s hv hslot
  | atom hcell' | port hcell' | real hcell' =>
      rw [hcell] at hcell'
      cases hcell'
  | held _ _ _ _ hkind =>
      rw [Heap.typeOf, hcell] at hkind
      exact absurd rfl hkind

/-! ### Steps -/

theorem memberOf_missing (hhas : Succeeds call m (hostHas target (.name name)) false m') :
    Succeeds call m (memberOf target name) none m' := by
  unfold memberOf
  refine .bind hhas ?_
  rw [if_neg (by simp)]
  exact .pure

theorem memberOf_gives {m₁ : Machine} (hhas : Succeeds call m (hostHas target (.name name)) true m₁)
    (hget : Succeeds call m₁ (hostGet target (.name name)) (.value v) m') :
    Succeeds call m (memberOf target name) (some v) m' := by
  unfold memberOf
  refine .bind hhas ?_
  rw [if_pos rfl]
  exact .bind hget .pure

section

variable (hm : m.Presents h limit) (hregular : (Image.of h r).Regular)

include hm hregular

/-- What stands for an entry of a table is given. -/
theorem entryValue_shows {key : AtomType} {yield : Option HostType} {entries : Entries Entry}
    (hcell : h.cell r = ⟨.table key yield, .table entries⟩) {k : Atom} {e : Entry}
    (he : (k, e) ∈ entries) (call : Caller) (mask : Mask) :
    ∃ v m', Succeeds call m (entryValue ⟨r, mask, .table⟩ e) v m' ∧
      m.Grows (fun _ => True) m' ∧ Shows m' h mask v e.sight := by
  unfold entryValue Entry.sight
  cases hyield : e.yield with
  | none => exact ⟨.bool true, m, .pure, .refl m, rfl⟩
  | some s =>
      have hs : some s ∈ (h.contentOf r).slots := by
        rw [Heap.contentOf, hcell]
        exact List.mem_map.mpr ⟨(k, e), he, hyield⟩
      exact hm.shows (hm.wellTyped.regular_slot hregular hs) call mask

section

variable (hw : m.Wraps target r mask)

include hw

/-- A record has at a name what it holds in the exposed field of the name. -/
theorem record_finds {d : Nat} {record : String} {fields : List (Field HostType)}
    {slots : List (Option Ref)} (hcell : h.cell r = ⟨.record d record fields, .record slots⟩)
    (call : Caller) (name : String) :
    Finds call m h mask (memberOf target name) ((heldAt? mask fields slots name).map .value) := by
  have hdistinct := hm.wellTyped.regular_names hregular hcell
  obtain ⟨m₁, hhas, hgrows₁⟩ :=
    (hw.fronts (hm.heap_eq ▸ hcell)).hostHas_gives hm.coherent hdistinct call name
  cases hheld : heldAt? mask fields slots name with
  | none =>
      rw [hheld] at hhas
      exact ⟨none, m₁, memberOf_missing hhas, hgrows₁, .none⟩
  | some s =>
      rw [hheld] at hhas
      have hm₁ := hm.grows hgrows₁
      obtain ⟨m₂, hgrows₂, hget⟩ := ((hw.grows hgrows₁).fronts (hm₁.heap_eq ▸ hcell)).hostGet_gives
        hm₁.coherent hdistinct call hheld
      -- what the field holds is shown on the machine that the look-ups have left
      obtain ⟨x, -, hslot⟩ := Option.bind_eq_some_iff.mp hheld
      have hs : some s ∈ (h.contentOf r).slots := by
        rw [Heap.contentOf, hcell]
        exact List.mem_of_getElem? (Option.join_eq_some_iff.mp hslot)
      obtain ⟨v, m₃, hshow, hgrows₃, hv⟩ :=
        (hm₁.grows hgrows₂).shows (hm.wellTyped.regular_slot hregular hs) call mask
      exact ⟨some v, m₃, memberOf_gives hhas (hget hshow),
        (hgrows₁.trans hgrows₂).trans hgrows₃, .some hv⟩

/-- A table has at a name what it holds at the key that the name denotes. -/
theorem table_finds {key : AtomType} {yield : Option HostType} {entries : Entries Entry}
    (hcell : h.cell r = ⟨.table key yield, .table entries⟩) (call : Caller) (name : String) :
    Finds call m h mask (memberOf target name)
      (((key.keyOfName name).toOption.bind entries.find?).map Entry.sight) := by
  have hcell' := hm.heap_eq ▸ hcell
  have hstands := hw.stands hcell'
  have hentries : m.heap.entryAt? r = entries.find? :=
    funext (Heap.entryAt?_eq (congrArg Cell.content hcell'))
  have hhas := hstands.hostHas_name call name
  have hget := hstands.hostGet_name name
  rw [hentries] at hhas hget
  cases hfound : (key.keyOfName name).toOption.bind entries.find? with
  | none =>
      rw [hfound] at hhas
      exact ⟨none, m, memberOf_missing hhas, .refl m, .none⟩
  | some e =>
      rw [hfound] at hhas
      obtain ⟨a, ha, he⟩ := Option.bind_eq_some_iff.mp hfound
      cases hname : key.keyOfName name with
      | error fault =>
          rw [hname] at ha
          cases ha
      | ok b =>
          rw [hname] at ha hget
          cases ha
          simp only [he] at hget
          obtain ⟨k, hk⟩ := Entries.mem_of_find? he
          obtain ⟨v, m', hentry, hgrows, hv⟩ := entryValue_shows hm hregular hcell hk call mask
          exact ⟨some v, m', memberOf_gives hhas (hget.succeeds (.bind hentry .pure)), hgrows, .some hv⟩

end

/-- An array has at an index what stands for the item. -/
theorem item_finds {type : HostType} {slots : List (Option Ref)} (hv : Represents m h mask 0 v r)
    (hcell : h.cell r = ⟨.vector type, .vector slots⟩) (call : Caller) (index : Nat) :
    Finds call m h mask (takeStep (.item index) v) (slots[index]?.map .ofItem) := by
  obtain ⟨o, items, rfl, -, hobject, hsize, hitems⟩ := hv.array hcell
  have htake : SameOn m (takeStep (.item index) (.object o))
      (if index < items.length then do return some (← getProperty o (.item index))
      else return none) := by
    apply SameOn.get_bind
    rw [hobject]
    exact .refl
  by_cases hindex : index < items.length
  · obtain ⟨slot, hslot⟩ : ∃ slot, slots[index]? = some slot :=
      ⟨_, List.getElem?_eq_getElem (hsize ▸ hindex)⟩
    have hitem := List.getElem?_eq_getElem hindex
    have hshown := hitems index items[index] slot hitem hslot
    have hown : (m.object o).own? (.item index) = some (.plain items[index]) := by
      rw [hobject, Object.own?_arrayWith_item, hitem]
      rfl
    have hread : Gives call m (getProperty o (.item index)) items[index] m :=
      getProperty_own (isProxy_arrayWith hobject) hown hshown.settled
    rw [if_pos hindex] at htake
    rw [hslot, Option.map_some]
    refine ⟨some items[index], m, htake.succeeds (.bind (.routine hread) .pure), .refl m, .some ?_⟩
    cases slot with
    | none => exact hshown
    | some s =>
        have hs : some s ∈ (h.contentOf r).slots := by
          rw [Heap.contentOf, hcell]
          exact List.mem_of_getElem? hslot
        exact ⟨hm.wellTyped.regular_slot hregular hs, hshown⟩
  · rw [if_neg hindex] at htake
    rw [List.getElem?_eq_none (hsize ▸ Nat.not_lt.mp hindex)]
    exact ⟨none, m, htake.succeeds .pure, .refl m, .none⟩

end

/-- There is no step from a primitive value. -/
theorem takeStep_primitive (hv : v.object? = none) (step : Step) : takeStep step v = pure none := by
  cases v with
  | object => cases hv
  | _ => cases step <;> rfl

/-- There is no step from a copy of a port. -/
theorem takeStep_plain {members : List (String × Value)} (hobject : m.object o = .plainWith members)
    (call : Caller) (step : Step) : Succeeds call m (takeStep step (.object o)) none m := by
  cases step with
  | member name =>
      have hlive : m.live? o = none := by
        rw [Machine.live?, hobject]
        rfl
      apply Succeeds.get_bind
      rw [hlive]
      exact .pure
  | item index =>
      apply Succeeds.get_bind
      rw [hobject]
      exact .pure

/-- There is no step but to a member from a live value. -/
theorem takeStep_live {receiver : Receiver} (hlive : m.live? o = some (target, receiver))
    (step : Step) : SameOn m (takeStep step (.object o))
      (match step with
        | .member name => memberOf target name
        | .item _ => pure none) := by
  cases step with
  | member name =>
      apply SameOn.get_bind
      rw [hlive]
      exact .refl
  | item index =>
      apply SameOn.get_bind
      unfold Machine.live? at hlive
      split at hlive
      next target' handler hkind =>
        rw [hkind]
        exact .refl
      next => cases hlive

/-- A live value has at a name what the host has there. -/
theorem live_finds (hm : m.Presents h limit) (hregular : (Image.of h r).Regular)
    (hv : Represents m h mask low v r) (hkind : WrapKind.of (h.typeOf r) ≠ .bare) (call : Caller)
    (step : Step) : Finds call m h mask (takeStep step v) (h.stepInto? mask r step) := by
  obtain rfl := hm.heap_eq
  obtain ⟨o, target, rfl, hw, hlive⟩ := hv.live hkind
  have htake := takeStep_live hlive step
  have hfits := hm.wellTyped.fits r
  have hcell := m.heap.cell_eq r
  generalize htype : m.heap.typeOf r = type, hcontent : m.heap.contentOf r = content
    at hfits hcell hkind
  cases step with
  | item index =>
      have hstep : m.heap.stepInto? mask r (.item index) = none := by
        cases hfits with
        | vector => exact absurd rfl hkind
        | _ => simp only [Heap.stepInto?, hcell]
      exact hstep ▸ ⟨none, m, htake.succeeds .pure, .refl m, .none⟩
  | member name =>
      have hfinds : Finds call m m.heap mask (memberOf target name)
          (m.heap.stepInto? mask r (.member name)) := by
        cases hfits with
        | record =>
            simp only [Heap.stepInto?, hcell]
            exact record_finds hm hregular hw hcell call name
        | table =>
            simp only [Heap.stepInto?, hcell]
            exact table_finds hm hregular hw hcell call name
        | atom | real | vector => exact absurd rfl hkind
      obtain ⟨w, m', hmember, hfound⟩ := hfinds
      exact ⟨w, m', htake.succeeds hmember, hfound⟩

/-- A step from a script value finds what the host has there. -/
theorem takeStep_finds (hm : m.Presents h limit) (hs : Shows m h mask v s) (call : Caller)
    (step : Step) : Finds call m h mask (takeStep step v) (h.stepFrom? mask step s) := by
  have hnothing (hstep : Succeeds call m (takeStep step v) none m) :
      Finds call m h mask (takeStep step v) none :=
    ⟨none, m, hstep, .refl m, .none⟩
  have hprimitive (hv : v.object? = none) : Finds call m h mask (takeStep step v) none :=
    hnothing (takeStep_primitive hv step ▸ .pure)
  cases s with
  | present | unset =>
      cases hs
      exact hprimitive rfl
  | value r =>
      obtain ⟨hregular, hv⟩ := hs
      rw [Heap.stepFrom?]
      have hv' := hv
      cases hv' with
      | atom hcell hvalue =>
          have hstep : h.stepInto? mask r step = none := by
            cases step <;> simp only [Heap.stepInto?, hcell]
          exact hstep ▸ hprimitive (object?_shownAs hvalue)
      | real hcell =>
          have hstep : h.stepInto? mask r step = none := by
            cases step <;> simp only [Heap.stepInto?, hcell]
          exact hstep ▸ hprimitive (object?_ofReal _)
      | port hcell _ _ hobject =>
          have hstep : h.stepInto? mask r step = none := by
            cases step <;> simp only [Heap.stepInto?, hcell]
          exact hstep ▸ hnothing (takeStep_plain hobject call step)
      | vector hcell _ _ hobject =>
          cases step with
          | item index =>
              simp only [Heap.stepInto?, hcell]
              exact item_finds hm hregular hv hcell call index
          | member name =>
              simp only [Heap.stepInto?, hcell]
              refine hnothing (.get_bind ?_)
              rw [Machine.live?, hobject]
              exact .pure
      | held _ _ _ _ hkind => exact live_finds hm hregular hv hkind call step

/-- Along a path from a script value, what the host has there is found. -/
theorem walk_finds (hm : m.Presents h limit) (hs : Shows m h mask v s) (call : Caller)
    (path : List Step) : Finds call m h mask (walk path v) (h.sightAt? mask path s) := by
  induction path generalizing m v s with
  | nil => exact ⟨some v, m, .pure, .refl m, .some hs⟩
  | cons step path ih =>
      obtain ⟨w, m₁, hstep, hgrows₁, hw⟩ := takeStep_finds hm hs call step
      rw [Heap.sightAt?]
      generalize h.stepFrom? mask step s = found at hw ⊢
      cases hw with
      | none => exact ⟨none, m₁, .bind hstep .pure, hgrows₁, .none⟩
      | some hw =>
          obtain ⟨w', m₂, hrest, hgrows₂, hw'⟩ := ih (hm.grows hgrows₁) hw
          exact ⟨w', m₂, .bind hstep hrest, hgrows₁.trans hgrows₂, hw'⟩

end Script

end HostView
