import HostView.Proofs.Exposure.Faults
import HostView.Proofs.Exposure.Twins
import HostView.Proofs.Host.Tables

/-! # Converting script values

A conversion ends alike over kin bridges, and what it gives is of the type that was asked for. It
changes only values that it made itself, so every host value that was there stays as it was, also
where the conversion fails half-way. Every record that it builds has its required fields. The host
refuses nothing that a conversion asks of it: where the conversion fails, the fault is in the script
value.
-/

namespace HostView.Script

open Discipline

variable {P : Policy} {fixed : Prop} {old : Nat} {b c : Bridge} {call : Caller}
  {e : Engine} {type : HostType} {r : Ref} {v : Value} {blame : ConversionFault → Prop}

/-! ### Building -/

/-- A value of the type that was built after the bound: it may still be changed. -/
structure Fresh (old : Nat) (type : HostType) (b : Bridge) (r : Ref) : Prop where
  lt : r < b.heap.cells.size
  typeOf_eq : b.heap.typeOf r = type
  old_le : old ≤ r

/-- A value of the type that may be stored. -/
structure Obtained (old : Nat) (type : HostType) (b : Bridge) (r : Ref) : Prop where
  holds : b.heap.Holds type r
  supplied : b.Supplies old r

theorem Fresh.lead {b' : Bridge} (hr : Fresh old type b r) (h : Bridge.Leads P fixed old b b') :
    Fresh old type b' r :=
  ⟨h.lt hr.lt, (h.typeOf_eq hr.lt).trans hr.typeOf_eq, hr.old_le⟩

/-- A value that was built may be stored once its required fields are set. -/
theorem Fresh.obtained (hr : Fresh old type b r)
    (hfilled : ∀ i f, type.fields[i]? = some f → f.attributes.isOptional = false →
      b.heap.Filled r i) : Obtained old type b r :=
  ⟨⟨hr.lt, hr.typeOf_eq ▸ HostType.same_refl _⟩,
    .inr ⟨hr.old_le, hr.lt, fun i f hf => hfilled i f (hr.typeOf_eq ▸ hf)⟩⟩

theorem Obtained.lead {b' : Bridge} (hr : Obtained old type b r)
    (h : Bridge.Leads P fixed old b b') : Obtained old type b' r :=
  ⟨hr.holds.extend h.grows,
    hr.supplied.imp (h.shows r) fun hnew => ⟨hnew.1, hnew.2.extend h.grows⟩⟩

theorem Obtained.yieldFits {s : Ref} (hs : Obtained old type b s) :
    b.heap.YieldFits (some type) (some s) :=
  hs.holds

theorem allocate_agrees (h : Bridge.Kin P old b c) {content : HostView.Content}
    (hblank : content.Blank) (hcheck : Heap.checkContent type content = .ok ()) :
    (kin P fixed old).Agrees call e b c (allocate fun g => g.new type content)
      (allocate fun g => g.new type content) (fun r b' => Fresh old type b' r) blame := by
  unfold allocate
  refine .get_bind ?_
  obtain ⟨fault, hleft, -⟩ | ⟨⟨r, g⟩, ⟨_, g'⟩, hleft, hright, rfl, hg⟩ :=
    (h.heap.new type hblank).cases
  · simp [Heap.new_eq hcheck] at hleft
  · simp only [hleft, hright]
    refine .bind (P := fun _ b' => b'.heap = g) ?_ fun _ e' b' c' h' _ hb' => .pure h' ?_
    · have hleads : Bridge.Leads P fixed old _ _ := Bridge.leads_new h.old_le hblank hleft
      exact .modifyBridge rfl rfl (h.lead hg hleads) hleads rfl
    · subst hb'
      refine ⟨(Heap.holds_new hleft).lt, Heap.typeOf_new hleft, ?_⟩
      obtain ⟨-, rfl, -⟩ := Heap.new_eq_ok hleft
      exact h.old_le

/-- A change that the host does not refuse. -/
theorem complete_agrees (h : Bridge.Kin P old b c)
    {change : Heap → Except HostFault Heap} (hsucceeds : ∃ g, change b.heap = .ok g)
    (hboth : Both (Heap.Kin P) (change b.heap) (change c.heap))
    (hleads : ∀ g, change b.heap = .ok g → Bridge.Leads P fixed old b { b with heap := g }) :
    (kin P fixed old).Agrees call e b c (complete change) (complete change)
      (fun _ b' => change b.heap = .ok b'.heap) blame := by
  unfold complete
  refine .get_bind ?_
  obtain ⟨fault, hleft, -⟩ | ⟨g, g', hleft, hright, hg⟩ := hboth.cases
  · obtain ⟨g, hg⟩ := hsucceeds
    simp [hleft] at hg
  · simp only [hleft, hright]
    exact .modifyBridge rfl rfl (h.lead hg (hleads g hleft)) (hleads g hleft) rfl

theorem complete_setField_agrees (h : Bridge.Kin P old b c) {descriptor offset : Nat} {record : String}
    {fields : List (Field HostType)} {f : Field HostType} {v : Ref}
    (hr : Fresh old (.record descriptor record fields) b r) (hf : fields[offset]? = some f)
    (hv : Obtained old f.type b v) :
    (kin P fixed old).Agrees call e b c (complete fun g => g.setField r offset (some v))
      (complete fun g => g.setField r offset (some v)) (fun _ b' => b'.heap.Filled r offset) blame := by
  have hlt : ∀ w, some v = some w → w < b.heap.cells.size := by
    rintro w ⟨⟩
    exact hv.holds.lt
  have hsucceeds := h.heap.left.setField_succeeds hr.typeOf_eq hf hv.holds.same
  refine .mono (complete_agrees h hsucceeds (h.heap.setField hlt) fun g hset => ?_)
    fun _ _ _ hset => Heap.filled_setField h.heap.left hset
  refine Bridge.leads_changedAt (Heap.extends_setField hset) (Heap.changedAt_setField hset) ?_
    (fun hlt => absurd hr.old_le (Nat.not_le.mpr hlt)) (fun hlt => absurd hr.old_le (Nat.not_le.mpr hlt))
    (·.setField hset) fun _ => hr.old_le
  intro s w hw
  refine (Heap.refersTo_setField hset hw).imp_right ?_
  rintro ⟨⟩
  exact hv.supplied

theorem complete_tableAssign_agrees (h : Bridge.Kin P old b c) {key : AtomType}
    {yieldType : Option HostType} {k : Ref} {yield : Option Ref}
    (hr : Fresh old (.table key yieldType) b r) (hk : Obtained old (.atom key) b k)
    (hyield : b.heap.YieldFits yieldType yield) (hsupplied : ∀ v, yield = some v → b.Supplies old v) :
    (kin P fixed old).Agrees call e b c (complete fun g => g.tableAssign r k yield)
      (complete fun g => g.tableAssign r k yield) (fun _ _ => True) blame := by
  have hsucceeds := h.heap.left.tableAssign_succeeds hr.typeOf_eq hk.holds hyield
  have hboth := h.heap.tableAssign (r := r) hk.holds.lt hyield.lt
  refine .mono (complete_agrees h hsucceeds hboth fun g hassign => ?_) fun _ _ _ _ => trivial
  obtain ⟨a, -, hchanged⟩ := Heap.changedAt_tableAssign hassign
  refine Bridge.leads_changedAt (Heap.extends_tableAssign hassign) hchanged ?_
    (fun hlt => absurd hr.old_le (Nat.not_le.mpr hlt)) (fun hlt => absurd hr.old_le (Nat.not_le.mpr hlt))
    (·.tableAssign hassign) fun _ => hr.old_le
  intro s w hw
  refine (Heap.refersTo_tableAssign hassign hw).imp_right ?_
  rintro (rfl | hw)
  · exact hk.supplied
  · exact hsupplied w hw

theorem complete_vectorPush_agrees (h : Bridge.Kin P old b c) {element : HostType} {v : Ref}
    (hr : Fresh old (.vector element) b r) (hv : Obtained old element b v) :
    (kin P fixed old).Agrees call e b c (complete fun g => g.vectorPush r v)
      (complete fun g => g.vectorPush r v) (fun _ _ => True) blame := by
  have hsucceeds := h.heap.left.vectorPush_succeeds hr.typeOf_eq hv.holds.same
  refine .mono (complete_agrees h hsucceeds (h.heap.vectorPush hv.holds.lt) fun g hpush => ?_)
    fun _ _ _ _ => trivial
  refine Bridge.leads_changedAt (Heap.extends_vectorPush hpush) (Heap.changedAt_vectorPush hpush) ?_
    (fun hlt => absurd hr.old_le (Nat.not_le.mpr hlt)) (fun hlt => absurd hr.old_le (Nat.not_le.mpr hlt))
    (·.vectorPush hpush) fun _ => hr.old_le
  intro s w hw
  refine (Heap.refersTo_vectorPush hpush hw).imp_right ?_
  rintro rfl
  exact hv.supplied

/-! ### Values of the very type -/

section

variable (hcall : (kin P fixed old).Lawful call)

include hcall

theorem heldOf?_agrees (h : Bridge.Kin P old b c) (type : HostType) (v : Value) :
    (kin P fixed old).Agrees call e b c (heldOf? type v) (heldOf? type v)
      (fun x b' => ∀ r, x = some r → Obtained old type b' r) blame := by
  unfold heldOf?
  split
  next o =>
    refine .bind (.effect (unwrapValue_ends hcall h o)) fun x e' b' c' h' _ hx => ?_
    split
    next r =>
      refine .get_bind ?_
      simp only [← h'.heap.typeOf_eq r]
      split
      next hsame =>
        refine .pure h' ?_
        rintro s ⟨⟩
        exact ⟨⟨(hx r rfl).1, hsame⟩, .inl (hx r rfl).2⟩
      next => exact .pure h' nofun
    next => exact .pure h' nofun
  next => exact .pure h nofun

theorem heldOr_agrees (h : Bridge.Kin P old b c) {convert : Conversion Ref}
    (hconvert : ∀ e' b' c', Bridge.Kin P old b' c' →
      (kin P fixed old).Agrees call e' b' c' convert convert
        (fun r b'' => Obtained old type b'' r) blame) :
    (kin P fixed old).Agrees call e b c (heldOr type v convert) (heldOr type v convert)
      (fun r b' => Obtained old type b' r) blame := by
  unfold heldOr
  refine .bind (heldOf?_agrees hcall h type v) fun x e' b' c' h' _ hx => ?_
  split
  next r => exact .pure h' (hx r rfl)
  next => exact hconvert e' b' c' h'

omit hcall in
theorem newAtom_agrees (h : Bridge.Kin P old b c) {α : AtomType} {a : Atom}
    (ha : α.admits a = true) :
    (kin P fixed old).Agrees call e b c (newAtom α a) (newAtom α a)
      (fun r b' => Obtained old (.atom α) b' r) blame :=
  (allocate_agrees h (Content.blank_atom a) (Heap.checkContent_atom ha)).mono
    fun _ _ _ hr => hr.obtained nofun

theorem atomToHost_agrees (h : Bridge.Kin P old b c) (α : AtomType) (v : Value) :
    (kin P fixed old).Agrees call e b c (atomToHost α v) (atomToHost α v)
      (fun r b' => Obtained old (.atom α) b' r) ConversionFault.OfValue :=
  heldOr_agrees hcall h fun _ _ _ h' =>
    .bind (.ensured hcall h' (atomOf_ensures α v).ofValue) fun _ _ _ _ h'' _ ha => newAtom_agrees h'' ha

theorem memberToHost_agrees (h : Bridge.Kin P old b c) (α : AtomType) (v : Value) :
    (kin P fixed old).Agrees call e b c (memberToHost α v) (memberToHost α v)
      (fun r b' => Obtained old (.atom α) b' r) ConversionFault.OfValue := by
  unfold memberToHost
  split
  next s =>
    have hexpected : "string" ∉ internalKinds := by decide
    have htext := (textOf_ensures hexpected (.string s)).ofValue
    refine .bind (.ensured hcall h htext) fun text e' b' c' h' _ _ => ?_
    have hname := (α.keyOfName_judged text b').ofValue
    exact .bind (.except h' hname) fun a _ _ _ h'' _ ha => newAtom_agrees h'' ha
  next => exact atomToHost_agrees hcall h α v

/-! ### Loops over parts -/

theorem forItems_agrees (h : Bridge.Kin P old b c) (o : ObjectId)
    {convert : Nat → Value → Conversion Unit}
    (hround : ∀ index v e' b' c', Bridge.Kin P old b' c' → Bridge.Leads P fixed old b b' →
      (kin P fixed old).Agrees call e' b' c' (convert index v) (convert index v)
        (fun _ _ => True) ConversionFault.OfValue) :
    (kin P fixed old).Agrees call e b c (forItems o convert) (forItems o convert)
      (fun _ _ => True) ConversionFault.OfValue := by
  unfold forItems
  refine .bind (.ensured hcall h (readProperty_ensures o _).ofValue) fun v e' b' c' h' hleads _ => ?_
  split
  next length =>
    refine .forM _ h' fun index _ e'' b'' c'' h'' hleads' => ?_
    refine .bind (.ensured hcall h'' (readProperty_ensures o _).ofValue) fun item e₃ b₃ c₃ h₃ hleads'' _ => ?_
    exact hround index item e₃ b₃ c₃ h₃ (hleads.trans (hleads'.trans hleads''))
  next => exact .pure h' trivial

theorem forNames_agrees (h : Bridge.Kin P old b c) (o : ObjectId)
    {convert : String → Conversion Unit}
    (hround : ∀ name e' b' c', Bridge.Kin P old b' c' → Bridge.Leads P fixed old b b' →
      (kin P fixed old).Agrees call e' b' c' (convert name) (convert name) (fun _ _ => True)
        ConversionFault.OfValue) :
    (kin P fixed old).Agrees call e b c (forNames o convert) (forNames o convert)
      (fun _ _ => True) ConversionFault.OfValue := by
  unfold forNames
  refine .bind (.effect (.turn hcall h _)) fun names e' b' c' h' hleads _ => ?_
  split
  next => exact .throw h'
  next names =>
    refine .forM _ h' fun name _ e'' b'' c'' h'' hleads' => ?_
    cases name with
    | text name => exact hround name e'' b'' c'' h'' (hleads.trans hleads')
    | illFormed => exact .throw h''

/-! ### Conversions -/

/-- A conversion to a type ends alike over kin bridges, with a value of the type unless there is a fault
in the script value. -/
def Converts (P : Policy) (fixed : Prop) (old : Nat) (call : Caller) (type : HostType) : Prop :=
  ∀ v e b c, Bridge.Kin P old b c →
    (kin P fixed old).Agrees call e b c (toHost type v) (toHost type v)
      (fun r b' => Obtained old type b' r) ConversionFault.OfValue

theorem converts_set (key : AtomType) : Converts P fixed old call (.table key none) := by
  intro v e b c h
  rw [toHost]
  refine heldOr_agrees hcall h fun e' b' c' h' => ?_
  refine .bind (allocate_agrees h' Content.blank_table rfl) fun r e₁ b₁ c₁ h₁ _ hr => ?_
  refine .bind (.ensured hcall h₁ (arrayOf_ensures v).ofValue) fun o e₂ b₂ c₂ h₂ hleads₂ _ => ?_
  refine .bind (forItems_agrees hcall h₂ o fun index item e₃ b₃ c₃ h₃ hleads₃ => ?_)
    fun _ e₃ b₃ c₃ h₃ hleads₃ _ => .pure h₃ ((hr.lead (hleads₂.trans hleads₃)).obtained nofun)
  have hmember := memberToHost_agrees hcall h₃ (e := e₃) key item
  refine .bind (.adapt _ hmember fun _ => id) fun k e₄ b₄ c₄ h₄ hleads₄ hk => ?_
  have hr₄ := hr.lead (hleads₂.trans (hleads₃.trans hleads₄))
  exact complete_tableAssign_agrees h₄ hr₄ hk trivial nofun

theorem converts_table {yield : HostType} (key : AtomType)
    (hyield : Converts P fixed old call yield) :
    Converts P fixed old call (.table key (some yield)) := by
  intro v e b c h
  rw [toHost]
  refine heldOr_agrees hcall h fun e' b' c' h' => ?_
  refine .bind (allocate_agrees h' Content.blank_table rfl) fun r e₁ b₁ c₁ h₁ _ hr => ?_
  have hexpected : "object" ∉ internalKinds := by decide
  have hobject := (plainObject_ensures hexpected v).ofValue
  refine .bind (.ensured hcall h₁ hobject) fun o e₂ b₂ c₂ h₂ hleads₂ _ => ?_
  refine .bind (forNames_agrees hcall h₂ o fun name e₃ b₃ c₃ h₃ hleads₃ => ?_)
    fun _ e₃ b₃ c₃ h₃ hleads₃ _ => .pure h₃ ((hr.lead (hleads₂.trans hleads₃)).obtained nofun)
  have hname := (key.keyOfName_judged name b₃).ofValue
  refine .bind (.adapt _ (.except h₃ hname) fun _ => id) fun a e₄ b₄ c₄ h₄ hleads₄ ha => ?_
  refine .bind (newAtom_agrees h₄ ha) fun k e₅ b₅ c₅ h₅ hleads₅ hk => ?_
  refine .bind (.ensured hcall h₅ (readProperty_ensures o _).ofValue) fun item e₆ b₆ c₆ h₆ hleads₆ _ => ?_
  refine .bind (.adapt _ (hyield item e₆ b₆ c₆ h₆) fun _ => id) fun x e₇ b₇ c₇ h₇ hleads₇ hx => ?_
  have hr₇ := hr.lead
    (hleads₂.trans (hleads₃.trans (hleads₄.trans (hleads₅.trans (hleads₆.trans hleads₇)))))
  have hk₇ := hk.lead (hleads₆.trans hleads₇)
  refine complete_tableAssign_agrees h₇ hr₇ hk₇ hx.yieldFits ?_
  rintro w ⟨⟩
  exact hx.supplied

theorem converts_vector {element : HostType} (helement : Converts P fixed old call element) :
    Converts P fixed old call (.vector element) := by
  intro v e b c h
  rw [toHost]
  refine heldOr_agrees hcall h fun e' b' c' h' => ?_
  refine .bind (allocate_agrees h' Content.blank_vector rfl) fun r e₁ b₁ c₁ h₁ _ hr => ?_
  refine .bind (.ensured hcall h₁ (arrayOf_ensures v).ofValue) fun o e₂ b₂ c₂ h₂ hleads₂ _ => ?_
  refine .bind (forItems_agrees hcall h₂ o fun index item e₃ b₃ c₃ h₃ hleads₃ => ?_)
    fun _ e₃ b₃ c₃ h₃ hleads₃ _ => .pure h₃ ((hr.lead (hleads₂.trans hleads₃)).obtained nofun)
  have hconvert := helement item e₃ b₃ c₃ h₃
  refine .bind (.adapt _ hconvert fun _ => id) fun x e₄ b₄ c₄ h₄ hleads₄ hx => ?_
  exact complete_vectorPush_agrees h₄ (hr.lead (hleads₂.trans (hleads₃.trans hleads₄))) hx

theorem fillFields_agrees {descriptor : Nat} {record : String} {all : List (Field HostType)}
    (h : Bridge.Kin P old b c) (o : ObjectId) (hr : Fresh old (.record descriptor record all) b r)
    (offset : Nat) (fields : List (Field HostType)) (hall : all.drop offset = fields)
    (hfields : ∀ f ∈ fields, Converts P fixed old call f.type) :
    (kin P fixed old).Agrees call e b c (fillFields o record r offset fields)
      (fillFields o record r offset fields) (fun _ b' => ∀ i f, offset ≤ i → all[i]? = some f →
        f.attributes.isOptional = false → b'.heap.Filled r i) ConversionFault.OfValue := by
  induction fields generalizing e b c offset with
  | nil =>
      refine .pure h fun i f hi hf => ?_
      have hlt := (List.getElem?_eq_some_iff.mp hf).1
      exact absurd (List.drop_eq_nil_iff.mp hall) (Nat.not_le_of_lt (Nat.lt_of_le_of_lt hi hlt))
  | cons f fields ih =>
      have hrest : ∀ g ∈ fields, Converts P fixed old call g.type :=
        fun g hg => hfields g (List.mem_cons_of_mem _ hg)
      have hdrop : all.drop (offset + 1) = fields := by
        rw [← List.drop_drop, hall, List.drop_one, List.tail_cons]
      have hat : all[offset]? = some f := by rw [← List.head?_drop, hall, List.head?_cons]
      rw [fillFields]
      refine .bind (.ensured hcall h (readProperty_ensures o _).ofValue) fun v e₁ b₁ c₁ h₁ hleads₁ _ => ?_
      have hr₁ := hr.lead hleads₁
      split
      next =>
        have hfirst := hfields f List.mem_cons_self v e₁ b₁ c₁ h₁
        refine .bind (.adapt _ hfirst fun _ => id) fun x e₂ b₂ c₂ h₂ hleads₂ hx => ?_
        have hr₂ := hr₁.lead hleads₂
        refine .bind (complete_setField_agrees h₂ hr₂ hat hx) fun _ e₃ b₃ c₃ h₃ hleads₃ hset => ?_
        have hr₃ := hr₂.lead hleads₃
        refine .mono (ih h₃ hr₃ (offset + 1) hdrop hrest) fun _ b' hleads hlater i g hi hg hrequired => ?_
        rcases Nat.eq_or_lt_of_le hi with rfl | hlt
        · exact hset.extend hleads.grows (hr₃.typeOf_eq ▸ hg) hrequired
        · exact hlater i g hlt hg hrequired
      next =>
        split
        next hoptional =>
          refine .mono (ih h₁ hr₁ (offset + 1) hdrop hrest) fun _ b' _ hlater i g hi hg hrequired => ?_
          rcases Nat.eq_or_lt_of_le hi with rfl | hlt
          · obtain rfl : f = g := Option.some.inj (hat.symm.trans hg)
            exact absurd hoptional (by simp [hrequired])
          · exact hlater i g hlt hg hrequired
        next => exact .throw h₁

theorem converts_record {descriptor : Nat} {name : String} {fields : List (Field HostType)}
    (hfields : ∀ f ∈ fields, Converts P fixed old call f.type) :
    Converts P fixed old call (.record descriptor name fields) := by
  intro v e b c h
  rw [toHost]
  refine heldOr_agrees hcall h fun e' b' c' h' => ?_
  have hexpected : "object" ∉ internalKinds := by decide
  have hobject := (plainObject_ensures hexpected v).ofValue
  refine .bind (.ensured hcall h' hobject) fun o e₁ b₁ c₁ h₁ _ _ => ?_
  have hcheck := Heap.checkContent_record descriptor name fields
  refine .bind (allocate_agrees h₁ (Content.blank_record _) hcheck) fun r e₂ b₂ c₂ h₂ _ hr => ?_
  refine .bind (fillFields_agrees hcall h₂ o hr 0 fields rfl hfields) ?_
  exact fun _ e₃ b₃ c₃ h₃ hleads₃ hfilled =>
    .pure h₃ ((hr.lead hleads₃).obtained fun i f => hfilled i f (Nat.zero_le i))

theorem converts_real (kind : RealKind) : Converts P fixed old call (.real kind) := by
  intro v e b c h
  rw [toHost]
  refine heldOr_agrees hcall h fun e' b' c' h' => ?_
  split
  next x _ =>
    exact (allocate_agrees h' (Content.blank_real kind x) (Heap.checkContent_real kind x)).mono
      fun _ _ _ hr => hr.obtained nofun
  next =>
    have hfails : Ensures (mismatch "number" v : Decoding Ref) (fun _ => False)
        ConversionFault.Simple := mismatch_ensures (by decide) v
    exact (Agrees.ensured hcall h' hfails.ofValue).mono fun _ _ _ => False.elim

end

mutual

/-- Every conversion ends alike, by the structure of the type. -/
theorem converts (hcall : (kin P fixed old).Lawful call) :
    ∀ type : HostType, Converts P fixed old call type
  | .atom α => fun v e b c h => by
      rw [toHost]
      exact atomToHost_agrees hcall h α v
  | .real kind => converts_real hcall kind
  | .record _ _ fields => converts_record hcall (converts_fields hcall fields)
  | .table key none => converts_set hcall key
  | .table key (some yield) => converts_table hcall key (converts hcall yield)
  | .vector element => converts_vector hcall (converts hcall element)

theorem converts_fields (hcall : (kin P fixed old).Lawful call) :
    ∀ fields : List (Field HostType), ∀ f ∈ fields, Converts P fixed old call f.type
  | ⟨_, type, _⟩ :: fields, f, hf => by
      rcases List.mem_cons.mp hf with rfl | hrest
      · exact converts hcall type
      · exact converts_fields hcall fields f hrest

end

end HostView.Script
