import HostView.Exposure.Writing
import HostView.Proofs.Exposure.Conversion
import HostView.Proofs.Exposure.Reading

/-! # Writing live values

A write through a live value is refused or stored alike over kin bridges, and it leaves twins. It
converts first and changes a host value last, and only then nothing can be thrown any more: either
no host value that was there has changed, or one at one place, which the receiver opens. The host
refuses nothing but to clear a required field.
-/

namespace HostView.Script

open Discipline

variable {P : Policy} {fixed : Prop} {old : Nat} {b b' b'' c : Bridge} {call : Caller}
  {e : Engine} {r : Receiver} {may : Ref → Place → Prop} {blame : Thrown → Prop} {α β ε : Type}

/-! ### How writes end -/

/-- How a write may end that began over a bridge: of the host values below the bound none has
changed, or one at one place if nothing was thrown. -/
inductive Written (old : Nat) (may : Ref → Place → Prop) (b : Bridge) :
    Except ε α → Bridge → Prop where
  | kept {x : Except ε α} {b' : Bridge} (hframe : ∀ s < old, b'.heap.cell s = b.heap.cell s) :
      Written old may b x b'
  | changed {v : α} {b' : Bridge} {s : Ref} {place : Place} (hmay : may s place)
      (hchanged : Heap.ChangedAt old b.heap b'.heap s place) : Written old may b (.ok v) b'

/-- What changed no host value below the bound may come before. -/
theorem Written.after {x : Except ε α} (h : Written old may b' x b'')
    (hframe : ∀ s < old, b'.heap.cell s = b.heap.cell s) : Written old may b x b'' := by
  cases h with
  | kept hrest => exact .kept fun s hs => (hrest s hs).trans (hframe s hs)
  | @changed _ _ s _ hmay hchanged =>
      by_cases hs : s < old
      · exact .changed hmay (hchanged.after hframe (hframe s hs))
      · refine .kept fun t ht => ?_
        have hne : t ≠ s := fun heq => hs (heq ▸ ht)
        exact (hchanged.others t ht hne).trans (hframe t ht)

theorem Written.map {x : Except ε α} {v : β} (h : Written old may b x b') :
    Written old may b (x.map fun _ => v) b' := by
  cases h with
  | kept hframe => exact .kept hframe
  | changed hmay hchanged => exact .changed hmay hchanged

/-- Two steps end alike over twins, and in the way of a write if host values are held fixed against
all that they call. What they throw is as `blame` says. -/
def Writes (P : Policy) (fixed : Prop) (old : Nat) (call : Caller) (e : Engine)
    (b c : Bridge) (a a' : ExceptT ε Effect α) (may : Ref → Place → Prop)
    (blame : ε → Prop := fun _ => True) : Prop :=
  (kin P False old).Ends call e b c a.run a'.run fun x b' =>
    (fixed → Written old may b x b') ∧ Judged (fun _ _ => True) blame x b'

/-- What holds host values fixed may also be seen as not doing so. -/
theorem Discipline.Ends.loosen {a a' : Effect α} {post : α → Bridge → Prop}
    (h : (kin P fixed old).Ends call e b c a a' post) :
    (kin P False old).Ends call e b c a a' fun x b' =>
      Bridge.Leads P fixed old b b' ∧ post x b' where
  result := h.result
  engine := h.engine
  alike := h.alike
  leads := { h.leads with frame := False.elim }
  post := ⟨h.leads, h.post⟩

namespace Writes

variable {a a' : ExceptT ε Effect α} {post : α → Bridge → Prop} {blame blame' : ε → Prop}

/-- What changes no host value is a write of nothing. -/
theorem of_agrees {Q : α → Bridge → Prop} (h : (kin P fixed old).Agrees call e b c a a' Q blame) :
    Writes P fixed old call e b c a a' may blame :=
  h.loosen.mono fun _ _ _ hx =>
    ⟨fun hfixed => .kept (hx.1.frame hfixed), hx.2.imp (fun _ _ => trivial) fun _ => id⟩

theorem agrees (h : Writes P fixed old call e b c a a' may blame) :
    (kin P False old).Agrees call e b c a a' (fun _ _ => True) blame :=
  h.mono fun _ _ _ hx => hx.2

/-- A write may follow on what changes no host value. -/
theorem bind_run {f f' : α → ExceptT ε Effect β}
    (ha : (kin P fixed old).Agrees call e b c a a' post blame)
    (hf : ∀ x e' b' c', (a.run.run call).run ⟨e, b⟩ = (.ok x, ⟨e', b'⟩) →
      Bridge.Kin P old b' c' → Bridge.Leads P fixed old b b' → post x b' →
      Writes P fixed old call e' b' c' (f x) (f' x) may blame) :
    Writes P fixed old call e b c (a >>= f) (a' >>= f') may blame := by
  rw [Writes, ExceptT.run_bind, ExceptT.run_bind]
  refine Ends.bind_run ha.loosen fun x e' b' c' hrun halike _ ⟨hleads, hx⟩ => ?_
  cases x with
  | ok v =>
      refine (hf v e' b' c' hrun halike hleads hx).mono fun y b'' _ hy => ⟨fun hfixed => ?_, hy.2⟩
      exact (hy.1 hfixed).after (hleads.frame hfixed)
  | error fault => exact Ends.pure halike ⟨fun hfixed => .kept (hleads.frame hfixed), hx⟩

theorem bind {f f' : α → ExceptT ε Effect β}
    (ha : (kin P fixed old).Agrees call e b c a a' post blame)
    (hf : ∀ x e' b' c', Bridge.Kin P old b' c' → Bridge.Leads P fixed old b b' → post x b' →
      Writes P fixed old call e' b' c' (f x) (f' x) may blame) :
    Writes P fixed old call e b c (a >>= f) (a' >>= f') may blame :=
  .bind_run ha fun x e' b' c' _ => hf x e' b' c'

theorem imp {may' : Ref → Place → Prop} (h : Writes P fixed old call e b c a a' may blame)
    (hmay : ∀ s place, may s place → may' s place)
    (hblame : ∀ fault, blame fault → blame' fault := by exact fun _ _ => trivial) :
    Writes P fixed old call e b c a a' may' blame' := by
  refine h.mono fun x b' _ hx => ⟨fun hfixed => ?_, hx.2.imp (fun _ => id) hblame⟩
  cases hx.1 hfixed with
  | kept hframe => exact .kept hframe
  | changed hplace hchanged => exact .changed (hmay _ _ hplace) hchanged

theorem get_bind {f f' : Machine → ExceptT ε Effect α}
    (h : Writes P fixed old call e b c (f ⟨e, b⟩) (f' ⟨e, c⟩) may blame) :
    Writes P fixed old call e b c (get >>= f) (get >>= f') may blame :=
  h

/-- A write may be answered by a value. -/
theorem answer {v : β} (h : Writes P fixed old call e b c a a' may blame) :
    Writes P fixed old call e b c (a >>= fun _ => pure v) (a' >>= fun _ => pure v) may blame := by
  rw [Writes, ExceptT.run_bind, ExceptT.run_bind]
  refine Ends.bind h fun x e' b' c' halike _ hx => ?_
  cases x with
  | ok w => exact Ends.pure halike ⟨fun hfixed => (hx.1 hfixed).map (v := v), trivial⟩
  | error fault => exact Ends.pure halike ⟨fun hfixed => (hx.1 hfixed).map (v := v), hx.2⟩

end Writes

/-! ### What the host refuses -/

/-- The fault tells that a field which the receiver shows is required. -/
inductive Receiver.Requires (r : Receiver) (h : Heap) : HostFault → Prop where
  | intro {descriptor offset : Nat} {record : String} {fields : List (Field HostType)}
      {f : Field HostType} (htype : h.typeOf r.value = .record descriptor record fields)
      (hf : fields[offset]? = some f) (hexposes : r.mask.exposes f.attributes = true)
      (hrequired : f.attributes.isOptional = false) : Requires r h (.requiredField record f.name)

/-- The fault tells that a field which the object shows is required. -/
def Machine.Requires (m : Machine) (target : ObjectId) (fault : HostFault) : Prop :=
  ∃ r, m.receiver? target = some r ∧ r.kind = .record ∧ r.Requires m.heap fault

/-- Where something is required later on, it was before. -/
theorem Receiver.Requires.back {fault : HostFault} (h : r.Requires b'.heap fault) (hr : r.Within P b)
    (hleads : Bridge.Leads P fixed old b b') : r.Requires b.heap fault := by
  obtain ⟨htype, hf, hexposes, hrequired⟩ := h
  exact ⟨(hleads.typeOf_eq hr.lt).symm.trans htype, hf, hexposes, hrequired⟩

/-- A field that is shown is shown later on. -/
theorem Receiver.Shows.lead {offset : Nat} {f : Field HostType} (hshown : r.Shows b.heap offset f)
    (hr : r.Within P b) (hleads : Bridge.Leads P fixed old b b') : r.Shows b'.heap offset f :=
  ⟨hleads.typeOf_eq hr.lt ▸ hshown.1, hshown.2⟩

/-! ### Storing -/

theorem refuse_agrees {post : α → Bridge → Prop} (h : Bridge.Kin P old b c)
    {cause : Refusal} (hcause : blame (.refused cause)) :
    (kin P fixed old).Agrees call e b c (refuse cause : Action α) (refuse cause) post blame :=
  .throw h hcause

theorem refuse_writes (h : Bridge.Kin P old b c) {cause : Refusal}
    (hcause : blame (.refused cause)) :
    Writes P fixed old call e b c (refuse cause : Action α) (refuse cause) may blame :=
  .of_agrees (Q := fun _ _ => True) (refuse_agrees h hcause)

theorem changeHost_writes (h : Bridge.Kin P old b c)
    {change : Heap → Except HostFault Heap}
    (hboth : Both (Heap.Kin P) (change b.heap) (change c.heap))
    (hchange : ∀ g, change b.heap = .ok g → Bridge.Leads P False old b { b with heap := g } ∧
      ∃ s place, may s place ∧ Heap.ChangedAt old b.heap g s place)
    (hfault : ∀ fault, change b.heap = .error fault → blame (.refused (.host fault))) :
    Writes P fixed old call e b c (changeHost change) (changeHost change) may blame := by
  unfold changeHost
  refine .get_bind ?_
  obtain ⟨fault, hleft, hright⟩ | ⟨g, g', hleft, hright, hg⟩ := hboth.cases
  · simp only [hleft, hright]
    exact refuse_writes h (hfault fault hleft)
  · simp only [hleft, hright]
    obtain ⟨hleads, s, place, hmay, hchanged⟩ := hchange g hleft
    exact ⟨rfl, rfl, h.lead hg hleads, hleads, fun _ => .changed hmay hchanged, trivial⟩

/-- Where a field is set, the host refuses nothing; it may refuse to clear it. -/
theorem setField_writes (h : Bridge.Kin P old b c) {offset : Nat} {f : Field HostType}
    {host : Option Ref} (hshown : r.Shows b.heap offset f) (hr : r.Within P b)
    (hhost : ∀ v, host = some v → Obtained old f.type b v) (hmay : may r.value (.slot offset))
    (hrequired : ∀ fault, host = none → r.Requires b.heap fault → blame (.refused (.host fault))) :
    Writes P fixed old call e b c (changeHost fun g => g.setField r.value offset host)
      (changeHost fun g => g.setField r.value offset host) may blame := by
  have hlt : ∀ v, host = some v → v < b.heap.cells.size := fun v hv => (hhost v hv).holds.lt
  refine changeHost_writes h (h.heap.setField hlt) (fun g hset => ?_) fun fault hset => ?_
  · have hchanged : Heap.ChangedAt old _ _ _ _ := Heap.changedAt_setField hset
    refine ⟨Bridge.leads_changedAt (Heap.extends_setField hset) hchanged ?_ ?_
        (fun _ => ⟨r.mask, hr.shows⟩) (·.setField hset) False.elim, r.value, .slot offset, hmay, hchanged⟩
    · exact fun s v hv => (Heap.refersTo_setField hset hv).imp_right fun hv => (hhost v hv).supplied
    · rintro - _ g' ⟨⟩ hg'
      obtain rfl : f = g' := Option.some.inj (hshown.1.symm.trans hg')
      exact hshown.not_hidden hr
  · obtain ⟨descriptor, record, fields, htype, hf⟩ := HostType.eq_record_of_field hshown.1
    cases host with
    | some v =>
        obtain ⟨g, hg⟩ := h.heap.left.setField_succeeds htype hf (hhost v rfl).holds.same
        simp [hg] at hset
    | none =>
        obtain ⟨g, hg⟩ | ⟨hf', hfault⟩ := h.heap.left.clearField htype hf
        · simp [hg] at hset
        · obtain rfl : _ = fault := Except.error.inj (hfault.symm.trans hset)
          exact hrequired _ rfl ⟨htype, hf, hshown.2, hf'⟩

/-- An entry of the types of the table is stored. -/
theorem storeEntry_writes (h : Bridge.Kin P old b c) {key : AtomType} {a : Atom}
    {yieldType : Option HostType} {yield : Option Ref} (hr : r.Within P b)
    (htype : b.heap.typeOf r.value = .table key yieldType) (ha : key.admits a = true)
    (hyield : b.heap.YieldFits yieldType yield) (hsupplied : ∀ v, yield = some v → b.Supplies old v)
    (hmay : may r.value (.entry a)) :
    Writes P fixed old call e b c (storeEntry r key a yield) (storeEntry r key a yield)
      may blame := by
  have hblank := Content.blank_atom a
  obtain ⟨entries, hcontent⟩ := h.heap.left.table_entries htype
  have hstored := Heap.assign_stored htype hcontent ha hyield
  refine changeHost_writes h ?_ (fun g hg => ?_) fun fault hfault => by simp [hstored] at hfault
  · refine .bind ((h.heap.new _ hblank).imp fun _ _ hx _ hxy => (⟨hx, hxy⟩ : _ ∧ _)) ?_
    rintro ⟨k, g⟩ ⟨_, g'⟩ ⟨hnew, rfl, hg⟩
    refine hg.tableAssign (Heap.holds_new hnew).lt fun v hv => ?_
    exact Nat.lt_of_lt_of_le (hyield.lt v hv) (Heap.extends_new hnew).size_le
  · cases hnew : b.heap.new (.atom key) (.atom a) with
    | error => simp [hnew, bind, Except.bind] at hg
    | ok x =>
        obtain ⟨k, g'⟩ := x
        simp only [hnew, bind, Except.bind] at hg
        obtain ⟨a', ha', hchanged⟩ : ∃ a', _ ∧ Heap.ChangedAt old g' g _ _ :=
          Heap.changedAt_tableAssign hg
        obtain rfl : a = a' := by simpa [Heap.contentOf_new hnew] using ha'
        have hbuilt : Bridge.Leads P True old _ _ := Bridge.leads_new h.old_le hblank hnew
        have hcell : g'.cell r.value = b.heap.cell r.value :=
          Heap.cell_new hnew (Heap.lt_of_table hcontent)
        have hshows : P.Shows r.value (g'.typeOf r.value) r.mask :=
          hbuilt.typeOf_eq hr.lt ▸ hr.shows
        refine ⟨.trans { hbuilt with frame := False.elim }
            (Bridge.leads_changedAt (Heap.extends_tableAssign hg) hchanged ?_
              (fun _ _ _ => nofun) (fun _ => ⟨r.mask, hshows⟩) (·.tableAssign hg) False.elim),
          r.value, .entry a, hmay, hchanged.after (hbuilt.frame trivial) hcell⟩
        intro s v hv
        refine (Heap.refersTo_tableAssign hg hv).imp_right ?_
        rintro (rfl | hv)
        · have hkey : g'.Complete k := Heap.complete_of_fields_eq_nil (Heap.holds_new hnew).lt
            (by rw [Heap.typeOf_new hnew]; rfl)
          obtain ⟨-, rfl, -⟩ := Heap.new_eq_ok hnew
          exact .inr ⟨h.old_le, hkey⟩
        · exact (hsupplied v hv).imp id fun hnew' => ⟨hnew'.1, hnew'.2.extend hbuilt.grows⟩

/-- An entry is taken out of a table. -/
theorem removeEntry_writes (h : Bridge.Kin P old b c) {key : AtomType} {yieldType : Option HostType}
    (hr : r.Within P b) (htype : b.heap.typeOf r.value = .table key yieldType) (a : Atom)
    (hmay : may r.value (.entry a)) :
    Writes P fixed old call e b c (removeEntry r a) (removeEntry r a) may blame := by
  obtain ⟨entries, hcontent⟩ := h.heap.left.table_entries htype
  have herased := Heap.tableErase_eq htype hcontent a
  refine changeHost_writes h (h.heap.tableErase.bind fun _ _ hxy => hxy.2) (fun g hg => ?_)
    fun fault hfault => by simp [herased, bind, Except.bind, pure, Except.pure] at hfault
  cases herase : b.heap.tableErase r.value a with
  | error => simp [herase, bind, Except.bind] at hg
  | ok x =>
      simp only [herase, bind, Except.bind, pure, Except.pure, Except.ok.injEq] at hg
      subst hg
      have hchanged : Heap.ChangedAt old _ _ _ _ := Heap.changedAt_tableErase herase
      refine ⟨Bridge.leads_changedAt (Heap.extends_tableErase herase) hchanged ?_
          (fun _ _ _ => nofun) (fun _ => ⟨r.mask, hr.shows⟩) (·.tableErase herase) False.elim, r.value,
        .entry a, hmay, hchanged⟩
      exact fun s v hv => .inl (Heap.refersTo_tableErase herase hv)

/-! ### Converting what is written -/

theorem convertFor_agrees (hcall : (kin P fixed old).Lawful call) (h : Bridge.Kin P old b c)
    {path : ConversionFault → ConversionFault} (required : HostFault → Prop)
    (hpath : ∀ fault, fault.OfValue → (path fault).OfValue) (type : HostType) (v : Value) :
    (kin P fixed old).Agrees call e b c (convertFor path type v) (convertFor path type v)
      (fun r b' => Obtained old type b' r) (·.Blames required) := by
  unfold convertFor
  refine .bind (.attempt (converts hcall type v e b c h)) fun x e' b' c' h' _ hx => ?_
  split
  next r => exact .pure h' hx
  next fault => exact refuse_agrees h' (hpath fault hx)

theorem convertSlot_agrees (hcall : (kin P fixed old).Lawful call) (h : Bridge.Kin P old b c)
    {path : ConversionFault → ConversionFault} (required : HostFault → Prop)
    (hpath : ∀ fault, fault.OfValue → (path fault).OfValue) (type : HostType) (v : Value) :
    (kin P fixed old).Agrees call e b c (convertSlot path type v) (convertSlot path type v)
      (fun x b' => (∀ r, x = some r → Obtained old type b' r) ∧ (x = none → v.isPresent = false))
      (·.Blames required) := by
  unfold convertSlot
  split
  next =>
    refine .map (convertFor_agrees hcall h required hpath type v) fun r b' hr => ⟨?_, nofun⟩
    rintro s ⟨⟩
    exact hr
  next habsent => exact .pure h ⟨nofun, fun _ => by simpa using habsent⟩

/-! ### Writes -/

/-- The places of a value of the type that may be written through the receiver. -/
def Receiver.Opens (r : Receiver) (type : HostType) : Place → Prop
  | .slot offset => ∃ f, type.fields[offset]? = some f ∧ r.mask.exposes f.attributes = true
  | .entry _ => ∃ key yield, type = .table key yield
  | .tail => False

/-- The places that may be written through the object of a wrap. -/
def Machine.Opens (m : Machine) (target : ObjectId) (s : Ref) (place : Place) : Prop :=
  ∃ r, m.receiver? target = some r ∧ r.value = s ∧ r.Opens (m.heap.typeOf s) place

/-- The name denotes a key only of a table, and one of the type of its keys. -/
theorem tableAtom_judged (m : Machine) (r : Receiver) (name : PropertyName) (b : Bridge) :
    Judged (fun a _ => ∃ key yield, m.heap.typeOf r.value = .table key yield ∧ key.admits a = true)
      ConversionFault.OfValue (tableAtom m r name) b := by
  unfold tableAtom
  split
  next key yield htype =>
    exact (name.toAtom_judged key b).imp (fun a ha => ⟨key, yield, htype, ha⟩)
      fun _ => ConversionFault.Simple.ofValue
  next => exact (by decide : "table" ∉ internalKinds)

theorem classify_ensures (k : Key) (required : HostFault → Prop) :
    Ensures (classify k) (fun _ => True) (·.Blames required) := by
  unfold classify
  split
  next => exact .pure trivial
  next => exact .throw trivial

section

variable (hcall : (kin P fixed old).Lawful call)

include hcall

theorem writeField_writes (h : Bridge.Kin P old b c) (hr : r.Within P b) (name : String) (v : Value)
    (hmay : ∀ place, r.Opens (b.heap.typeOf r.value) place → may r.value place) :
    Writes P fixed old call e b c (writeField r name v) (writeField r name v) may
      (·.Blames fun fault => v.isPresent = false ∧ r.Requires b.heap fault) := by
  unfold writeField
  refine .bind (exposedField_agrees h name) fun found e₁ b₁ c₁ h₁ hleads₁ hfound => ?_
  split
  next =>
    refine .get_bind ?_
    simp only [← h₁.heap.typeOf_eq r.value]
    exact refuse_writes h₁ trivial
  next offset f =>
    have hshown := hfound.2 offset f rfl
    have hpath : ∀ fault : ConversionFault, fault.OfValue → (fault.inField name).OfValue := fun _ => id
    have hconvert := convertSlot_agrees hcall h₁ (e := e₁)
      (fun fault => v.isPresent = false ∧ r.Requires b.heap fault) hpath f.type v
    refine .bind hconvert fun host e₂ b₂ c₂ h₂ hleads₂ ⟨hhost, habsent⟩ => ?_
    have hleads := hleads₁.trans hleads₂
    refine setField_writes h₂ (hshown.lead hr hleads) (hr.lead hleads) hhost (hmay _ ⟨f, hshown⟩) ?_
    exact fun fault hnone hrequires => ⟨habsent hnone, hrequires.back hr hleads⟩

theorem writeEntry_writes {required : HostFault → Prop} (h : Bridge.Kin P old b c)
    (hr : r.Within P b) (name : PropertyName) (v : Value)
    (hmay : ∀ place, r.Opens (b.heap.typeOf r.value) place → may r.value place) :
    Writes P fixed old call e b c (writeEntry r name v) (writeEntry r name v) may
      (·.Blames required) := by
  unfold writeEntry
  refine .get_bind ?_
  simp only [← tableAtom_eq h name, ← h.heap.typeOf_eq r.value]
  have hjudged := tableAtom_judged ⟨e, b⟩ r name b
  split
  next fault hname =>
    rw [hname] at hjudged
    exact refuse_writes h hjudged
  next a ha =>
    rw [ha] at hjudged
    obtain ⟨key, yieldType, (htype : b.heap.typeOf r.value = _), hadmits⟩ := hjudged
    have hentry := hmay (.entry a) ⟨key, yieldType, htype⟩
    simp only [htype]
    cases yieldType with
    | none =>
        dsimp only
        split
        next => exact storeEntry_writes h hr htype hadmits trivial nofun hentry
        next => exact removeEntry_writes h hr htype a hentry
        next => exact refuse_writes h trivial
    | some yield =>
        dsimp only
        split
        next =>
          have hpath : ∀ fault : ConversionFault, fault.OfValue →
              (ConversionFault.inKey name.render fault).OfValue := fun _ => id
          have hconvert := convertFor_agrees hcall h (e := e) required hpath yield v
          refine .bind hconvert fun item e₁ b₁ c₁ h₁ hleads hitem => ?_
          have htype₁ := (hleads.typeOf_eq hr.lt).trans htype
          refine storeEntry_writes h₁ (hr.lead hleads) htype₁ hadmits hitem.yieldFits ?_ hentry
          rintro w ⟨⟩
          exact hitem.supplied
        next => exact removeEntry_writes h hr htype a hentry

theorem hostSet_writes (h : Bridge.Kin P old b c) (target : ObjectId) (k : Key)
    (v : Value) :
    Writes P fixed old call e b c (hostSet target k v) (hostSet target k v)
      (Machine.Opens ⟨e, b⟩ target)
      (·.Blames fun fault => v.isPresent = false ∧ Machine.Requires ⟨e, b⟩ target fault) := by
  unfold hostSet
  refine .get_bind ?_
  rw [← h.receiver?_eq target]
  cases hr : Machine.receiver? ⟨e, b⟩ target with
  | none => exact refuse_writes h trivial
  | some r =>
      refine .bind (.ensured hcall h (classify_ensures k _)) fun name e' b' c' h' hleads _ => ?_
      have hwithin := h.within hr
      have hr' := hwithin.lead hleads
      have hmay : ∀ place, r.Opens (b'.heap.typeOf r.value) place →
          Machine.Opens ⟨e, b⟩ target r.value place := fun place hplace =>
        ⟨r, hr, rfl, hleads.typeOf_eq hwithin.lt ▸ hplace⟩
      split
      next => exact refuse_writes h' trivial
      next =>
        split
        next hkind =>
          refine (writeField_writes hcall h' hr' _ v hmay).imp (fun _ _ => id) fun fault => ?_
          exact Thrown.Blames.imp fun fault hfault =>
            ⟨hfault.1, r, hr, hkind, hfault.2.back hwithin hleads⟩
        next => exact writeEntry_writes hcall h' hr' _ v hmay
        next => exact refuse_writes h' trivial

theorem hostDefine_writes (h : Bridge.Kin P old b c) (target : ObjectId) (k : Key)
    (d : Descriptor) :
    Writes P fixed old call e b c (hostDefine target k d) (hostDefine target k d)
      (Machine.Opens ⟨e, b⟩ target) (·.Blames fun fault =>
        (∃ v, d.value = some v ∧ v.isPresent = false) ∧ Machine.Requires ⟨e, b⟩ target fault) := by
  unfold hostDefine
  split
  next => exact refuse_writes h trivial
  next =>
    split
    next => exact refuse_writes h trivial
    next => exact refuse_writes h trivial
    next v _ hvalue =>
      refine (hostSet_writes hcall h target k v).imp (fun _ _ => id) fun fault => ?_
      exact Thrown.Blames.imp fun fault hfault => ⟨⟨v, hvalue, hfault.1⟩, hfault.2⟩

theorem hostDelete_writes (h : Bridge.Kin P old b c) (target : ObjectId) (k : Key) :
    Writes P fixed old call e b c (hostDelete target k) (hostDelete target k)
      (Machine.Opens ⟨e, b⟩ target) (·.Blames (Machine.Requires ⟨e, b⟩ target)) := by
  unfold hostDelete
  refine .get_bind ?_
  rw [← h.receiver?_eq target]
  cases hr : Machine.receiver? ⟨e, b⟩ target with
  | none => exact refuse_writes h trivial
  | some r =>
      refine .bind (.ensured hcall h (classify_ensures k _)) fun name e' b' c' h' hleads _ => ?_
      have hwithin := h.within hr
      have hr' := hwithin.lead hleads
      have hmay : ∀ place, r.Opens (b'.heap.typeOf r.value) place →
          Machine.Opens ⟨e, b⟩ target r.value place := fun place hplace =>
        ⟨r, hr, rfl, hleads.typeOf_eq hwithin.lt ▸ hplace⟩
      -- names that are not shown are deleted without an effect
      have hnothing {e'' b'' c''} (h'' : Bridge.Kin P old b'' c'') :
          Writes P fixed old call e'' b'' c'' (pure () : Action Unit) (pure ())
            (Machine.Opens ⟨e, b⟩ target) (·.Blames (Machine.Requires ⟨e, b⟩ target)) :=
        .of_agrees (Q := fun _ _ => True) (.pure h'' trivial)
      split
      next => exact hnothing h'
      next =>
        split
        next hkind =>
          refine .bind (exposedField_agrees h' _) fun found e₁ b₁ c₁ h₁ hleads₁ hfound => ?_
          split
          next offset f =>
            have hshown := hfound.2 offset f rfl
            have hleads' := hleads.trans hleads₁
            refine setField_writes h₁ (hshown.lead hr' hleads₁) (hr'.lead hleads₁) nofun
              (hmay _ ⟨f, hshown⟩) fun fault _ hrequires => ?_
            exact ⟨r, hr, hkind, hrequires.back hwithin hleads'⟩
          next => exact hnothing h₁
        next =>
          refine .get_bind ?_
          simp only [← tableAtom_eq h' name]
          have hjudged := tableAtom_judged ⟨e', b'⟩ r name b'
          split
          next a ha =>
            rw [ha] at hjudged
            obtain ⟨key, yieldType, htype, -⟩ := hjudged
            exact removeEntry_writes h' hr' htype a (hmay _ ⟨key, yieldType, htype⟩)
          next => exact hnothing h'
        next => exact refuse_writes h' trivial

end

/-! ### Requests -/

/-- A request of a script to change a property of a live value. -/
inductive Request where
  | assign (v : Value)
  | define (d : Descriptor)
  | delete

namespace Request

/-- What becomes of the request. -/
def perform (target : ObjectId) (k : Key) : Request → Action Unit
  | assign v => hostSet target k v
  | define d => hostDefine target k d
  | delete => hostDelete target k

/-- Nothing is to be left at the property. -/
def Clears : Request → Prop
  | assign v => v.isPresent = false
  | define d => ∀ v, d.value = some v → v.isPresent = false
  | delete => True

theorem perform_writes (hcall : (kin P fixed old).Lawful call) (h : Bridge.Kin P old b c)
    (request : Request) (target : ObjectId) (k : Key) :
    Writes P fixed old call e b c (request.perform target k) (request.perform target k)
      (Machine.Opens ⟨e, b⟩ target)
      (·.Blames fun fault => request.Clears ∧ Machine.Requires ⟨e, b⟩ target fault) := by
  cases request with
  | assign v => exact hostSet_writes hcall h target k v
  | define d =>
      refine (hostDefine_writes hcall h target k d).imp (fun _ _ => id) fun _ => ?_
      refine Thrown.Blames.imp fun fault hfault => ⟨fun w hw => ?_, hfault.2⟩
      obtain ⟨v, hv, habsent⟩ := hfault.1
      exact Option.some.inj (hv.symm.trans hw) ▸ habsent
  | delete =>
      refine (hostDelete_writes hcall h target k).imp (fun _ _ => id) fun _ => ?_
      exact Thrown.Blames.imp fun fault hfault => ⟨trivial, hfault⟩

end Request

end HostView.Script
