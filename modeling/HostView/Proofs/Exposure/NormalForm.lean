import HostView.Proofs.Exposure.Decoding
import HostView.Proofs.Exposure.Records
import HostView.Proofs.Exposure.TidyImages

/-! # The normal form of what a script sees

What a script is shown for a host value can be read to its end: a live value is asked for its names
and for what it has at each of them, and what it gives is read in the same way. The data that this
comes to is that of the snapshot.
-/

namespace HostView.Script

variable {call : Caller} {m m' : Machine} {h : Heap} {mask : Mask} {low limit n : Nat}
  {o target : ObjectId} {r : Ref} {v : Value}

/-! ### Reading to the end -/

/-- The live value that an object stands before, with the object of its wrap. -/
def Machine.live? (m : Machine) (o : ObjectId) : Option (ObjectId × Receiver) :=
  match (m.object o).kind with
  | .proxy target handler =>
    if handler = Intrinsic.bridge then (m.receiver? target).map fun r => (target, r) else none
  | _ => none

/-- The named values of an object, as they are. -/
def Object.data (object : Object) : List (String × Datum) :=
  object.properties.filterMap fun (k, p) =>
    match k, p.value? with
    | .string (.text name), some v => some (name, .value v)
    | _, _ => none

/-- What a live value has at a name, if it has the name. -/
def memberAt (form : Value → Action Datum) (target : ObjectId) (name : String) :
    Action (Option (String × Datum)) := do
  if ← hostHas target (.name name) then
    match ← hostGet target (.name name) with
    | .value v => return some (name, ← form v)
    | .inherited => return none
  else return none

/-- The snapshot of the member of a set that has the given text. -/
def memberSnapshot (h : Heap) (r : Receiver) (name : String) : Datum :=
  match h.cell r.value with
  | ⟨.table key none, .table entries⟩ =>
    match List.find? (fun e => e.1.render key = name) entries with
    | some (_, e) => ((Image.of h e.key).snapshot r.mask).datum
    | none => .value .undefined
  | _ => .value .undefined

/-- The data that a value comes to that a script is shown for a host value, read so many steps deep.
A big integer is a number or a text. A live record or table has the names that it lists and has. A
live set has the snapshots of its members. What is undefined in an array is null. -/
def normalForm : Nat → Value → Action Datum
  | 0, v => return .value v
  | _ + 1, .bigInt i => return (Plain.ofInt i).datum
  | n + 1, .object o => do
    let m ← get
    match m.live? o with
    | some (target, r) => do
      let names ← hostKeys target
      match m.heap.typeOf r.value with
      | .table _ none => return .array (names.map (memberSnapshot m.heap r))
      | _ => return .object (← names.mapM (memberAt (normalForm n) target)).reduceOption
    | none =>
      match (m.object o).kind with
      | .array length _ =>
        return .array (← (List.range length).mapM fun i => do
          match ← getProperty o (.item i) with
          | .undefined => return .value .null
          | v => normalForm n v)
      | _ => return .object (m.object o).data
  | _ + 1, v => return .value v

theorem normalForm_primitive (hv : v.object? = none) (hbig : ∀ i, v ≠ .bigInt i) :
    normalForm (n + 1) v = return .value v := by
  cases v with
  | bigInt i => exact absurd rfl (hbig i)
  | object o => cases hv
  | _ => rfl

/-- Whole numbers and reals are no big integers. -/
theorem ofInt_ne_bigInt (i j : Int) : Value.ofInt i ≠ .bigInt j := by
  unfold Value.ofInt
  split <;> nofun

theorem ofReal_ne_bigInt (x : Binary64) (j : Int) : Value.ofReal x ≠ .bigInt j := by
  unfold Value.ofReal
  split
  · split <;> nofun
  · nofun

/-- An atom that is shown as a primitive value has its snapshot for normal form. -/
theorem normalForm_shown {τ : AtomType} {a : Atom} (hv : shownAs? τ a = some v) :
    normalForm (n + 1) v = return (Plain.ofAtom τ a).datum := by
  cases a with
  | int i =>
      cases hv
      change normalForm (n + 1) (.ofHostInt i.toInt) = return (Plain.ofInt i.toInt).datum
      unfold Value.ofHostInt Plain.ofInt
      by_cases hsafe : i.toInt.natAbs ≤ safeLimit
      · have hsafe' : i.toInt.natAbs ≤ 2 ^ 53 - 1 := hsafe
        rw [if_pos hsafe, if_pos hsafe']
        exact normalForm_primitive (object?_ofInt _) (ofInt_ne_bigInt _)
      · rw [if_neg hsafe]
        rfl
  | port p => cases hv
  | _ =>
      cases hv
      rfl

/-! ### The objects of wraps -/

/-- The object is that of a wrap, which holds a value under a mask. -/
structure Machine.Wraps (m : Machine) (target : ObjectId) (r : Ref) (mask : Mask) : Prop where
  lt : target < m.objects.size
  holds : ∃ w state, m.object target = ⟨.wrap w, some Intrinsic.wrap, true, []⟩ ∧
    m.wraps.wrap? w = some ⟨some r, mask, WrapKind.of (m.heap.typeOf r), state⟩

namespace Machine.Wraps

variable (hw : m.Wraps target r mask)

include hw

theorem receiver :
    m.receiver? target = some ⟨r, mask, WrapKind.of (m.heap.typeOf r)⟩ := by
  obtain ⟨w, state, htarget, hwrap⟩ := hw.holds
  have hwrapOf : m.wrapOf? target = some w := by
    rw [wrapOf?, htarget]
  simp [receiver?, hwrapOf, hwrap]

theorem grows_of {P : ObjectId → Prop} (hgrows : m.Grows P m') (ht : P target) :
    m'.Wraps target r mask := by
  obtain ⟨w, state, htarget, hwrap⟩ := hw.holds
  obtain ⟨state', hwrap'⟩ := hgrows.wraps w _ hwrap
  refine ⟨Nat.lt_of_lt_of_le hw.lt hgrows.size_le, w, state', ?_, ?_⟩
  · exact (hgrows.engine.object_eq target hw.lt ht (htarget ▸ nofun)).trans htarget
  · rw [hgrows.heap]
    exact hwrap'

theorem grows (hgrows : m.Grows (fun _ => True) m') : m'.Wraps target r mask :=
  hw.grows_of hgrows trivial

/-- The proxy before the object is a live value. -/
theorem live?_eq (hobject : m.object o = ⟨.proxy target Intrinsic.bridge, none, true, []⟩) :
    m.live? o = some (target, ⟨r, mask, WrapKind.of (m.heap.typeOf r)⟩) := by
  rw [Machine.live?, hobject]
  simp [hw.receiver]

/-- The object of a wrapped record stands for it. -/
theorem fronts {d : Nat} {record : String} {fields : List (Field HostType)}
    {slots : List (Option Ref)} (hcell : m.heap.cell r = ⟨.record d record fields, .record slots⟩) :
    m.Fronts target ⟨r, mask, .record⟩ fields slots := by
  refine ⟨?_, rfl, d, record, hcell⟩
  rw [hw.receiver, Heap.typeOf, hcell]
  rfl

/-- The object of a wrapped table stands for it. -/
theorem stands {key : AtomType} {yield : Option HostType} {entries : Entries Entry}
    (hcell : m.heap.cell r = ⟨.table key yield, .table entries⟩) :
    m.Stands target ⟨r, mask, .table⟩ key yield := by
  refine ⟨?_, rfl, congrArg Cell.type hcell⟩
  rw [hw.receiver, Heap.typeOf, hcell]
  rfl

end Machine.Wraps

/-! ### Members -/

/-- What a host value is shown as comes to the data. -/
def ComesTo (call : Caller) (m : Machine) (mask : Mask) (form : Value → Action Datum) (r : Ref)
    (d : Datum) : Prop :=
  ∃ v m₁ m₂, Succeeds call m (wrapValue mask r) v m₁ ∧ Succeeds call m₁ (form v) d m₂ ∧
    m.Grows (fun _ => True) m₂

variable {form : Value → Action Datum} {data : Ref → Datum}

theorem memberAt_gives {name : String} {m₁ m₂ : Machine} {d : Datum}
    (hhas : Succeeds call m (hostHas target (.name name)) true m₁)
    (hget : Succeeds call m₁ (hostGet target (.name name)) (.value v) m₂)
    (hform : Succeeds call m₂ (form v) d m') :
    Succeeds call m (memberAt form target name) (some (name, d)) m' := by
  unfold memberAt
  refine .bind hhas ?_
  rw [if_pos rfl]
  exact .bind hget (.bind hform .pure)

theorem memberAt_missing {name : String}
    (hhas : Succeeds call m (hostHas target (.name name)) false m') :
    Succeeds call m (memberAt form target name) none m' := by
  unfold memberAt
  refine .bind hhas ?_
  rw [if_neg (by simp)]
  exact .pure

/-- A record has what it holds in an exposed field at the name of the field. -/
theorem Machine.Wraps.memberAt_gives (data : Ref → Datum) {d : Nat} {record : String}
    {fields : List (Field HostType)} {slots : List (Option Ref)} (hw : m.Wraps target r mask)
    (hm : m.Coherent) (hcell : m.heap.cell r = ⟨.record d record fields, .record slots⟩)
    (hdistinct : (fields.map (·.name)).Nodup) {i : Nat} {f : Field HostType}
    (hf : fields[i]? = some f) (hexposes : mask.exposes f.attributes = true)
    {slot : Option Ref} (hslot : slots[i]? = some slot)
    (hform : ∀ v, slot = some v → ∀ m', m.Grows (fun _ => True) m' →
      ComesTo call m' mask form v (data v)) :
    ∃ m', Succeeds call m (memberAt form target f.name) (slot.map fun v => (f.name, data v)) m' ∧
      m.Grows (fun _ => True) m' := by
  obtain ⟨m₁, hhas, hgrows₁⟩ := (hw.fronts hcell).hostHas_gives hm hdistinct call f.name
  have hheld := heldAt?_eq hdistinct hf hexposes hslot
  rw [hheld] at hhas
  cases slot with
  | none => exact ⟨m₁, memberAt_missing hhas, hgrows₁⟩
  | some v =>
      obtain ⟨m₂, hgrows₂, hget⟩ := ((hw.grows hgrows₁).fronts (hgrows₁.heap ▸ hcell)).hostGet_gives
        (hgrows₁.layouts hm) hdistinct call hheld
      obtain ⟨w, m₃, m₄, hshow, hdata, hgrows₄⟩ := hform v rfl m₂ (hgrows₁.trans hgrows₂)
      exact ⟨m₄, Script.memberAt_gives hhas (hget hshow) hdata,
        (hgrows₁.trans hgrows₂).trans hgrows₄⟩

/-- A table has what it holds at a key at the text of the key. -/
theorem Machine.Stands.memberAt_gives (data : Ref → Datum) {receiver : Receiver}
    {key : AtomType} {yieldType : HostType} {entries : Entries Entry}
    (hstands : m.Stands target receiver key (some yieldType))
    (hordered : m.heap.Ordered) (hcontent : m.heap.contentOf receiver.value = .table entries)
    {a : Atom} {e : Entry} {v : Ref} (hmem : (a, e) ∈ entries) (hyield : e.yield = some v)
    (hname : key.keyOfName (a.render key) = .ok a)
    (hform : ComesTo call m receiver.mask form v (data v)) :
    ∃ m', Succeeds call m (memberAt form target (a.render key)) (some (a.render key, data v)) m' ∧
      m.Grows (fun _ => True) m' := by
  have hentry : m.heap.entryAt? receiver.value a = some e := by
    rw [Heap.entryAt?_eq hcontent]
    exact (hordered _ _ hcontent).find?_eq_some.mpr hmem
  obtain ⟨w, m₁, m₂, hshow, hdata, hgrows⟩ := hform
  have hhas : Succeeds call m (hostHas target (.name (a.render key))) true m := by
    have hhas := hstands.hostHas_name call (a.render key)
    simpa [hname, Except.toOption, hentry] using hhas
  have hget : Succeeds call m (hostGet target (.name (a.render key))) (.value w) m₁ := by
    have hget := hstands.hostGet_name (a.render key)
    rw [hname] at hget
    simp only [hentry] at hget
    apply hget.succeeds
    refine .bind ?_ .pure
    unfold entryValue
    rw [hyield]
    exact hshow
  exact ⟨m₂, Script.memberAt_gives hhas hget hdata, hgrows⟩

/-! ### Live records and tables -/

/-- An object that stands before a live value is asked for the members that it lists. -/
theorem normalForm_live {receiver : Receiver} {names : List String}
    {members : List (Option (String × Datum))} (hlive : m.live? o = some (target, receiver))
    (hset : ∀ key, m.heap.typeOf receiver.value ≠ .table key none)
    (hkeys : Succeeds call m (hostKeys target) names m)
    (hmembers : Succeeds call m (names.mapM (memberAt (normalForm n) target)) members m') :
    Succeeds call m (normalForm (n + 1) (.object o)) (.object members.reduceOption) m' := by
  rw [normalForm]
  apply Succeeds.get_bind
  rw [hlive]
  refine .bind hkeys ?_
  split
  next key htype => exact absurd htype (hset key)
  next => exact .bind hmembers .pure

theorem record_normalForm {d : Nat} {record : String} {fields : List (Field HostType)}
    {slots : List (Option Ref)} (hw : m.Wraps target r mask)
    (hlive : m.live? o = some (target, ⟨r, mask, WrapKind.of (m.heap.typeOf r)⟩))
    (hm : m.Coherent) (hcell : m.heap.cell r = ⟨.record d record fields, .record slots⟩)
    (hlength : slots.length = fields.length) (hdistinct : (fields.map (·.name)).Nodup)
    (hform : ∀ (i : Nat) (f : Field HostType) (v : Ref), fields[i]? = some f →
      slots[i]? = some (some v) → ∀ m', m.Grows (fun _ => True) m' →
        ComesTo call m' mask (normalForm n) v (data v)) :
    ∃ m', Succeeds call m (normalForm (n + 1) (.object o))
        (.object ((fields.zip slots).filterMap fun (f, slot) =>
          if mask.exposes f.attributes then slot.map fun v => (f.name, data v) else none)) m' ∧
      m.Grows (fun _ => True) m' := by
  have htype : m.heap.typeOf r = .record d record fields := congrArg Cell.type hcell
  let shown := (fields.zip slots).filter fun x => mask.exposes x.1.attributes
  let member (x : Field HostType × Option Ref) : Option (String × Datum) :=
    x.2.map fun v => (x.1.name, data v)
  have hnames : (fields.filter fun f => mask.exposes f.attributes).map (·.name) =
      shown.map (·.1.name) := by
    have hfst : (fields.zip slots).map Prod.fst = fields :=
      List.map_fst_zip (Nat.le_of_eq hlength.symm)
    conv_lhs => rw [← hfst, List.filter_map, List.map_map]
    rfl
  -- the cache may grow from one name to the next, and all else stays
  have hrounds : List.Forall₂ (fun name y => ∀ m', m.Grows (fun _ => True) m' →
      ∃ m'', Succeeds call m' (memberAt (normalForm n) target name) y m'' ∧
        m.Grows (fun _ => True) m'') (shown.map (·.1.name)) (shown.map member) := by
    rw [List.forall₂_map_left_iff, List.forall₂_map_right_iff, List.forall₂_same]
    rintro ⟨f, slot⟩ hx m₁ hgrows₁
    obtain ⟨hmem, hexposes⟩ := List.mem_filter.mp hx
    obtain ⟨i, hi⟩ := List.mem_iff_getElem?.mp hmem
    obtain ⟨hf, hslot⟩ := List.getElem?_zip_eq_some.mp hi
    obtain ⟨m₂, hmember, hgrows₂⟩ := (hw.grows hgrows₁).memberAt_gives data (hgrows₁.layouts hm)
      (hgrows₁.heap ▸ hcell) hdistinct hf hexposes hslot fun v hv m' hgrows =>
        hform i f v hf (hv ▸ hslot) m' (hgrows₁.trans hgrows)
    exact ⟨m₂, hmember, hgrows₁.trans hgrows₂⟩
  obtain ⟨m', hmembers, hgrows⟩ := Succeeds.mapM _ (.refl m) hrounds
  refine ⟨m', ?_, hgrows⟩
  have hdata : (shown.map member).reduceOption = (fields.zip slots).filterMap fun (f, slot) =>
      if mask.exposes f.attributes then slot.map fun v => (f.name, data v) else none := by
    change ((shown.map member).filterMap id) = _
    rw [List.filterMap_map, List.filterMap_filter]
    rfl
  rw [← hdata]
  refine normalForm_live hlive (by simp [htype]) ?_ hmembers
  rw [← hnames]
  exact (hw.fronts hcell).hostKeys_gives call

theorem table_normalForm {key : AtomType} {yieldType : HostType} {entries : Entries Entry}
    (hw : m.Wraps target r mask)
    (hlive : m.live? o = some (target, ⟨r, mask, WrapKind.of (m.heap.typeOf r)⟩))
    (hordered : m.heap.Ordered)
    (hcell : m.heap.cell r = ⟨.table key (some yieldType), .table entries⟩)
    (hnames : ∀ a e, (a, e) ∈ entries → key.keyOfName (a.render key) = .ok a)
    (hyields : ∀ a e, (a, e) ∈ entries → ∃ v, e.yield = some v)
    (hform : ∀ a e v, (a, e) ∈ entries → e.yield = some v → ∀ m', m.Grows (fun _ => True) m' →
      ComesTo call m' mask (normalForm n) v (data v)) :
    ∃ m', Succeeds call m (normalForm (n + 1) (.object o))
        (.object (entries.filterMap fun (a, e) =>
          e.yield.map fun v => (a.render key, data v))) m' ∧
      m.Grows (fun _ => True) m' := by
  have htype : m.heap.typeOf r = .table key (some yieldType) := congrArg Cell.type hcell
  let member (x : Atom × Entry) : Option (String × Datum) :=
    x.2.yield.map fun v => (x.1.render key, data v)
  -- every listed name has a yield, so none is left out
  have hrounds : List.Forall₂ (fun name y => ∀ m', m.Grows (fun _ => True) m' →
      ∃ m'', Succeeds call m' (memberAt (normalForm n) target name) y m'' ∧
        m.Grows (fun _ => True) m'') (entries.map fun x => x.1.render key) (entries.map member) := by
    rw [List.forall₂_map_left_iff, List.forall₂_map_right_iff, List.forall₂_same]
    rintro ⟨a, e⟩ hmem m₁ hgrows₁
    obtain ⟨v, hv⟩ := hyields a e hmem
    have hcell₁ := hgrows₁.heap ▸ hcell
    obtain ⟨m₂, hmember, hgrows₂⟩ := ((hw.grows hgrows₁).stands hcell₁).memberAt_gives data
      (hgrows₁.heap ▸ hordered) (congrArg Cell.content hcell₁) hmem hv (hnames a e hmem)
      (hform a e v hmem hv m₁ hgrows₁)
    refine ⟨m₂, ?_, hgrows₁.trans hgrows₂⟩
    change Succeeds call m₁ _ (e.yield.map fun v => (a.render key, data v)) m₂
    rw [hv]
    exact hmember
  obtain ⟨m', hmembers, hgrows⟩ := Succeeds.mapM _ (.refl m) hrounds
  refine ⟨m', ?_, hgrows⟩
  have hdata : (entries.map member).reduceOption =
      entries.filterMap fun (a, e) => e.yield.map fun v => (a.render key, data v) := by
    change ((entries.map member).filterMap id) = _
    rw [List.filterMap_map]
    rfl
  rw [← hdata]
  refine normalForm_live hlive (by simp [htype]) ?_ hmembers
  exact (hw.stands hcell).hostKeys_gives call (congrArg Cell.content hcell)

/-- The member of a set that has the text of a key is that key, since the texts are distinct. -/
theorem memberSnapshot_eq (hh : h.WellTyped) (hordered : h.Ordered) (receiver : Receiver)
    {key : AtomType} {entries : Entries Entry}
    (hcell : h.cell receiver.value = ⟨.table key none, .table entries⟩)
    (hdistinct : key.Distinct) {a : Atom} {e : Entry} (hmem : (a, e) ∈ entries) :
    memberSnapshot h receiver (a.render key) = (Plain.ofAtom key a).datum := by
  have hsorted := hordered receiver.value entries (congrArg Cell.content hcell)
  have hadmits : ∀ x ∈ entries, key.admits x.1 = true := fun x hx =>
    hh.admits_key (congrArg Cell.type hcell) (congrArg Cell.content hcell) hx
  -- the first entry with the text is the one with the key, as texts tell keys apart
  have hfind : List.find? (fun x => x.1.render key = a.render key) entries = some (a, e) := by
    obtain ⟨x, hx⟩ : ∃ x, List.find? (fun x => x.1.render key = a.render key) entries = some x := by
      rw [← Option.isSome_iff_exists, List.find?_isSome]
      exact ⟨(a, e), hmem, by simp⟩
    have hx' := List.mem_of_find?_eq_some hx
    have hsame : x.1 = a := Atom.render_injective (hadmits x hx') (hadmits _ hmem) hdistinct
      (by simpa using List.find?_some hx)
    obtain ⟨b, e'⟩ := x
    obtain rfl : b = a := hsame
    rw [hx, hsorted.eq_of_mem hx' hmem]
  have hfits := hh.fits receiver.value
  rw [Heap.typeOf, Heap.contentOf, hcell] at hfits
  obtain ⟨hkey, hatom⟩ : h.typeOf e.key = .atom key ∧ h.contentOf e.key = .atom a := by
    cases hfits with
    | table hentries =>
        have hentry := hentries a e hmem
        exact ⟨HostType.eq_atom_of_same hentry.key.same, hentry.atom⟩
  have himage : Image.of h e.key = .atom key a := by
    obtain ⟨k, hk⟩ : ∃ k, h.reach e.key = k + 1 := ⟨_, by
      rw [Heap.reach, hkey, HostType.depth]⟩
    rw [Image.of, hk, Image.read, Heap.cell_eq, hkey, hatom]
  rw [memberSnapshot, hcell]
  dsimp only
  rw [hfind]
  dsimp only
  rw [himage]
  rfl

theorem set_normalForm (hh : m.heap.WellTyped) (hordered : m.heap.Ordered) {key : AtomType}
    {entries : Entries Entry} (hw : m.Wraps target r mask)
    (hlive : m.live? o = some (target, ⟨r, mask, WrapKind.of (m.heap.typeOf r)⟩))
    (hcell : m.heap.cell r = ⟨.table key none, .table entries⟩) (hdistinct : key.Distinct) :
    Succeeds call m (normalForm (n + 1) (.object o))
      (.array (entries.map fun x => (Plain.ofAtom key x.1).datum)) m := by
  have htype : m.heap.typeOf r = .table key none := congrArg Cell.type hcell
  rw [htype, WrapKind.of] at hlive
  have hmembers : (entries.map fun x => x.1.render key).map
      (memberSnapshot m.heap ⟨r, mask, .table⟩) =
      entries.map fun x => (Plain.ofAtom key x.1).datum := by
    rw [List.map_map]
    apply List.map_congr_left
    intro x hx
    exact memberSnapshot_eq hh hordered ⟨r, mask, .table⟩ hcell hdistinct hx
  rw [normalForm]
  apply Succeeds.get_bind
  rw [hlive]
  refine .bind ((hw.stands hcell).hostKeys_gives call (congrArg Cell.content hcell)) ?_
  dsimp only
  rw [htype, ← hmembers]
  exact .pure

/-! ### Arrays -/

theorem Represents.present (hv : Represents m h mask low v r) : v.isPresent = true := by
  have hofInt (i : Int) : (Value.ofInt i).isPresent = true := by
    unfold Value.ofInt
    split <;> rfl
  cases hv with
  | @atom _ τ a _ hcell hvalue =>
      cases a with
      | int i =>
          cases hvalue
          unfold Value.ofHostInt
          split
          next => exact hofInt _
          next => rfl
      | port => cases hvalue
      | _ =>
          cases hvalue
          rfl
  | @real _ _ x =>
      unfold Value.ofReal
      split
      · split <;> rfl
      · rfl
  | port | held | vector => rfl

theorem Represents.ne_undefined (hv : Represents m h mask low v r) : v ≠ .undefined := by
  rintro rfl
  cases hv.present

theorem RepresentsSlot.settled {slot : Option Ref} (hv : RepresentsSlot m h mask low v slot) :
    v.Settled m.toEngine := by
  cases slot with
  | none =>
      obtain rfl : v = .undefined := hv
      nofun
  | some s => exact Represents.settled hv

/-- The normal form of the item of an array, where what is undefined is null. -/
def itemAt (n : Nat) (o : ObjectId) (i : Nat) : Action Datum := do
  match ← getProperty o (.item i) with
  | .undefined => return .value .null
  | v => normalForm n v

/-- An item is read if what stands for its slot can be. -/
theorem itemAt_gives {items : List Value} {i : Nat} {slot : Option Ref}
    (hobject : m.object o = .arrayWith items) (hitem : items[i]? = some v)
    (hv : RepresentsSlot m h mask low v slot)
    (hform : ∀ s, slot = some s → Represents m h mask low v s →
      ∃ m', Succeeds call m (normalForm n v) (data s) m' ∧ m.Grows (fun _ => True) m') :
    ∃ m', Succeeds call m (itemAt n o i) ((slot.map data).getD (.value .null)) m' ∧
      m.Grows (fun _ => True) m' := by
  have hown : (m.object o).own? (.item i) = some (.plain v) := by
    rw [hobject, Object.own?_arrayWith_item, hitem]
    rfl
  have hread : Gives call m (getProperty o (.item i)) v m :=
    getProperty_own (isProxy_arrayWith hobject) hown hv.settled
  cases slot with
  | none =>
      obtain rfl : v = .undefined := hv
      exact ⟨m, .bind (.routine hread) .pure, .refl m⟩
  | some s =>
      obtain ⟨m', hdata, hgrows⟩ := hform s rfl hv
      refine ⟨m', .bind (.routine hread) ?_, hgrows⟩
      split
      next hundefined => exact absurd rfl (Represents.ne_undefined hv)
      next => exact hdata

/-- An array of what stands for the items of a vector is read item by item. -/
theorem vector_normalForm {items : List Value} {slots : List (Option Ref)}
    (ho : o < m.objects.size) (hobject : m.object o = .arrayWith items)
    (hsize : items.length = slots.length)
    (hitems : ∀ (i : Nat) (v : Value) (slot : Option Ref), items[i]? = some v →
      slots[i]? = some slot → RepresentsSlot m h mask low v slot)
    (hform : ∀ v s, some s ∈ slots → ∀ m', m.Grows (fun _ => True) m' →
      Represents m' h mask low v s →
        ∃ m'', Succeeds call m' (normalForm n v) (data s) m'' ∧ m'.Grows (fun _ => True) m'') :
    ∃ m', Succeeds call m (normalForm (n + 1) (.object o))
        (.array (slots.map fun slot => (slot.map data).getD (.value .null))) m' ∧
      m.Grows (fun _ => True) m' := by
  have hdata : (slots.map fun slot => (slot.map data).getD (.value .null)) =
      (List.range items.length).map fun i =>
        ((slots[i]?.getD none).map data).getD (.value .null) := by
    apply List.ext_getElem
    · simp [hsize]
    · intro i hi hi'
      have hlt : i < slots.length := by simpa using hi
      simp [List.getElem?_eq_getElem hlt]
  have hrounds : List.Forall₂ (fun i y => ∀ m', m.Grows (fun _ => True) m' →
      ∃ m'', Succeeds call m' (itemAt n o i) y m'' ∧ m.Grows (fun _ => True) m'')
      (List.range items.length) ((List.range items.length).map fun i =>
        ((slots[i]?.getD none).map data).getD (.value .null)) := by
    rw [List.forall₂_map_right_iff, List.forall₂_same]
    intro i hi m₁ hgrows₁
    have hlt := List.mem_range.mp hi
    obtain ⟨v, hitem⟩ : ∃ v, items[i]? = some v := ⟨_, List.getElem?_eq_getElem hlt⟩
    obtain ⟨slot, hslot⟩ : ∃ slot, slots[i]? = some slot :=
      ⟨_, List.getElem?_eq_getElem (hsize ▸ hlt)⟩
    have hobject₁ : m₁.object o = .arrayWith items :=
      (hgrows₁.engine.object_eq o ho trivial
        (hobject ▸ (Object.arrayWith_takes items).settled)).trans hobject
    have hv := (hitems i v slot hitem hslot).mono (hgrows₁.engine.mono fun _ _ _ => trivial)
      hgrows₁.wraps (Nat.le_refl low)
    obtain ⟨m₂, hgives, hgrows₂⟩ := itemAt_gives hobject₁ hitem hv fun s hs =>
      hform v s (hs ▸ List.mem_of_getElem? hslot) m₁ hgrows₁
    rw [hslot, Option.getD_some]
    exact ⟨m₂, hgives, hgrows₁.trans hgrows₂⟩
  obtain ⟨m', hrounds, hgrows⟩ := Succeeds.mapM _ (.refl m) hrounds
  refine ⟨m', ?_, hgrows⟩
  have hlive : m.live? o = none := by
    rw [Machine.live?, hobject]
    rfl
  rw [normalForm, hdata]
  apply Succeeds.get_bind
  rw [hlive, hobject]
  exact .bind hrounds .pure

/-! ### All values -/

/-- A live value comes to its snapshot if its parts come to theirs. -/
theorem live_normalForm (hh : m.heap.WellTyped) (hordered : m.heap.Ordered) (hm : m.Coherent)
    (hw : m.Wraps target r mask)
    (hlive : m.live? o = some (target, ⟨r, mask, WrapKind.of (m.heap.typeOf r)⟩))
    (hkind : WrapKind.of (m.heap.typeOf r) ≠ .bare) (htidy : (Image.read m.heap (n + 1) r).Tidy)
    (hpart : ∀ s, some s ∈ (m.heap.contentOf r).slots → (Image.read m.heap n s).Tidy →
      ∀ m', m.Grows (fun _ => True) m' →
        ComesTo call m' mask (normalForm n) s ((Image.read m.heap n s).snapshot mask).datum) :
    ∃ m', Succeeds call m (normalForm (n + 1) (.object o))
        ((Image.read m.heap (n + 1) r).snapshot mask).datum m' ∧ m.Grows (fun _ => True) m' := by
  have hfits := hh.fits r
  have hcell := m.heap.cell_eq r
  rw [Image.read] at htidy ⊢
  generalize htype : m.heap.typeOf r = type, hcontent : m.heap.contentOf r = content at hfits hcell
  rw [htype] at hkind
  rw [hcontent] at hpart
  rw [hcell] at htidy ⊢
  cases hfits with
  | @record d record fields slots hlength hslots =>
      cases htidy with
      | record hdistinct hnames hparts =>
          rw [Image.names_parts _ hlength] at hdistinct
          rw [Image.datum_record]
          refine record_normalForm hw hlive hm hcell hlength hdistinct ?_
          intro i f v hf hv m' hgrows
          have hmem : (f, some v) ∈ fields.zip slots :=
            List.mem_iff_getElem?.mpr ⟨i, List.getElem?_zip_eq_some.mpr ⟨hf, hv⟩⟩
          exact hpart v (List.mem_of_getElem? hv) (hparts _ (List.mem_map_of_mem hmem) _ rfl) m' hgrows
  | @table key yield entries hentries =>
      cases htidy with
      | set hdistinct hlength =>
          rw [Image.datum_set]
          exact ⟨m, set_normalForm hh hordered hw hlive hcell hdistinct, .refl m⟩
      | @table _ yieldType _ hdistinct hnames hmade hyields =>
          rw [Image.datum_table]
          refine table_normalForm hw hlive hordered hcell ?_ ?_ ?_
          · intro a e hmem
            have hadmits := hh.admits_key htype hcontent hmem
            exact AtomType.keyOfName_render hadmits hdistinct (hmade _ (List.mem_map_of_mem hmem))
          · intro a e hmem
            obtain ⟨v, hv, -⟩ := (hentries a e hmem).yield.eq_some
            exact ⟨v, hv⟩
          · intro a e v hmem hv m' hgrows
            refine hpart v (List.mem_map.mpr ⟨(a, e), hmem, hv⟩) ?_ m' hgrows
            exact hyields _ (List.mem_map_of_mem hmem) _ (congrArg (Option.map _) hv)
  | atom | real | vector => exact absurd rfl hkind

/-- Whatever stands for a value, on any machine over the heap, comes to the snapshot of the value. -/
def Normalizes (call : Caller) (h : Heap) (mask : Mask) (n : Nat) (r : Ref) : Prop :=
  ∀ ⦃m : Machine⦄ ⦃limit : Nat⦄ ⦃low : ObjectId⦄ ⦃v : Value⦄, m.heap = h → m.Ready limit →
    m.Coherent → Represents m h mask low v r →
      ∃ m', Succeeds call m (normalForm n v) ((Image.read h n r).snapshot mask).datum m' ∧
        m.Grows (fun _ => True) m'

/-- A part is shown again when it is read, on the machine that the reading has come to. -/
theorem Normalizes.comesTo (hnormalizes : Normalizes call h mask n r) (hh : h.WellTyped)
    (hheap : m.heap = h) (hready : m.Ready limit) (hm : m.Coherent)
    (hshort : h.Short (2 ^ 32 - 1) r) :
    ComesTo call m mask (normalForm n) r ((Image.read h n r).snapshot mask).datum := by
  subst hheap
  have hexposes : @Exposes mask call m (wrapValue mask r) r := wrapValue_shows hh hready hshort
  obtain ⟨v, m₁, hshow, hgrows₁, hv⟩ := hexposes
  obtain ⟨m₂, hdata, hgrows₂⟩ := hnormalizes hgrows₁.heap
    (hready.grows hgrows₁ fun _ _ => trivial) (hgrows₁.layouts hm) hv
  exact ⟨v, m₁, m₂, hshow, hdata, hgrows₁.trans hgrows₂⟩

/-- What a tidy host value is shown as comes to the snapshot of the value, under every mask. -/
theorem normalForm_gives (hh : h.WellTyped) (hordered : h.Ordered) (hdepth : (h.typeOf r).depth ≤ n)
    (htidy : (Image.read h n r).Tidy) : Normalizes call h mask n r := by
  revert htidy
  refine hh.depth_induction
    (motive := fun n r => (Image.read h n r).Tidy → Normalizes call h mask n r) ?_ hdepth
  intro n r hdepth ih htidy m limit low v hheap hready hm hv
  cases hv with
  | atom hcell hvalue =>
      rw [Image.read, hcell, normalForm_shown hvalue]
      exact ⟨m, .pure, .refl m⟩
  | @port _ τ p o hcell hlow hlt hobject =>
      have hlive : m.live? o = none := by
        rw [Machine.live?, hobject]
        rfl
      refine ⟨m, ?_, .refl m⟩
      rw [Image.read, hcell, normalForm]
      apply Succeeds.get_bind
      rw [hlive, hobject]
      exact .pure
  | real hcell =>
      rw [Image.read, hcell, normalForm_primitive (object?_ofReal _) (ofReal_ne_bigInt _)]
      exact ⟨m, .pure, .refl m⟩
  | @held _ o target w state hlow hlow' hlt hlt' hkind hobject htarget hwrap =>
      subst hheap
      -- a live value shows its parts when they are read, as new values of the script
      have hpart : ∀ s, some s ∈ (m.heap.contentOf r).slots → (Image.read m.heap n s).Tidy →
          ∀ m', m.Grows (fun _ => True) m' →
            ComesTo call m' mask (normalForm n) s ((Image.read m.heap n s).snapshot mask).datum := by
        intro s hs htidy m' hgrows
        have hlt := hh.depth_lt hs
        exact (ih s hs htidy).comesTo hh hgrows.heap (hready.grows hgrows fun _ _ => trivial)
          (hgrows.layouts hm) (hh.short_of_tidy (by omega) htidy)
      have hw : m.Wraps target r mask := ⟨hlt', w, state, htarget, hwrap⟩
      exact live_normalForm hh hordered hm hw (hw.live?_eq hobject) hkind htidy hpart
  | @vector _ element slots o items hcell hlow hlt hobject hsize hunset hitems =>
      have hcontent : h.contentOf r = .vector slots := congrArg Cell.content hcell
      rw [Image.read, hcell] at htidy ⊢
      cases htidy with
      | vector hlength htidy =>
          rw [Image.datum_vector]
          -- the items of an array were shown with it
          have hslots : ∀ (i : Nat) (v : Value) (slot : Option Ref), items[i]? = some v →
              slots[i]? = some slot → RepresentsSlot m h mask low v slot := by
            intro i v slot hv hslot
            cases slot with
            | none => exact hunset i v hv hslot
            | some s => exact hitems i v s hv hslot
          refine vector_normalForm hlt hobject hsize hslots ?_
          intro v s hs m' hgrows hv
          have hs' := htidy _ (List.mem_map_of_mem hs) _ rfl
          exact ih s (hcontent ▸ hs) hs' (hgrows.heap.trans hheap)
            (hready.grows hgrows fun _ _ => trivial) (hgrows.layouts hm) hv

end HostView.Script
