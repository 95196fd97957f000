import HostView.Proofs.Exposure.Tables
import HostView.Proofs.Host.Checking
import HostView.Proofs.Session

/-! # The names that a table lists

A live table lists one name for each entry. The names are distinct and come in the order of the keys,
and each of them leads back to its entry, however it is used. A subnet with bits of a host in it is
the one kind of key that is listed under the name of another.
-/

namespace HostView.Script

variable {m : Machine} {target : ObjectId} {r : Receiver} {key : AtomType}
  {yieldType : Option HostType} {entries : Entries Entry} {a : Atom} {e : Entry}

/-- The name leads to the entry: it denotes the key, the entry is what is read and described there,
and deleting the name takes out this entry and no other. -/
structure Machine.LeadsTo (m : Machine) (target : ObjectId) (r : Receiver) (key : AtomType)
    (entries : Entries Entry) (name : String) (a : Atom) (e : Entry) : Prop where
  resolves : ∃ p, PropertyName.ofKey (.name name) = .ok p ∧ p.toAtom key = .ok a
  get : SameOn m (hostGet target (.name name)) (do return .value (← entryValue r e))
  has : ∀ call, Succeeds call m (hostHas target (.name name)) true m
  property : SameOn m (hostProperty target (.name name))
    (do return some (.plain (← entryValue r e)))
  delete : ∀ call, Succeeds call m (hostDelete target (.name name)) ()
    { m with heap := m.heap.update r.value (.table (entries.erase a)) }

/-- A name that denotes the key of an entry leads to the entry. -/
theorem Machine.Stands.leadsTo (h : m.Stands target r key yieldType)
    (hordered : m.heap.Ordered) (hcontent : m.heap.contentOf r.value = .table entries)
    {name : String} (hname : key.keyOfName name = .ok a) (hmem : (a, e) ∈ entries) :
    m.LeadsTo target r key entries name a e := by
  have hentry : m.heap.entryAt? r.value a = some e := by
    rw [Heap.entryAt?_eq hcontent]
    exact (hordered _ _ hcontent).find?_eq_some.mpr hmem
  obtain ⟨p, hp, -⟩ := PropertyName.ofKey_name name
  have hget := h.hostGet_name name
  have hproperty := h.hostProperty_name name
  rw [hname] at hget hproperty
  simp only [Except.toOption, Option.bind_some, hentry] at hget hproperty
  refine ⟨⟨p, hp, by rw [PropertyName.toAtom_of_ofKey hp, hname]⟩, hget, ?_, hproperty, ?_⟩
  · intro call
    have hhas := h.hostHas_name call name
    simpa [hname, Except.toOption, hentry] using hhas
  · intro call
    have hdelete := h.hostDelete_name call hcontent name
    rwa [hname] at hdelete

/-- The names that a table lists are as many as its entries, all different, and in the order of the
keys. Each leads to its own entry, if the key is not a subnet that could not have been made. -/
theorem listed_names_lead (hh : m.heap.WellTyped) (hordered : m.heap.Ordered)
    (h : m.Stands target r key yieldType) (hcontent : m.heap.contentOf r.value = .table entries)
    (hdistinct : key.Distinct) :
    ∃ names : List String, (∀ call, Succeeds call m (hostKeys target) names m) ∧ names.Nodup ∧
      m.heap.tableSize r.value = .ok names.length ∧
      entries.Pairwise (fun x y => x.1.compare y.1 = .lt) ∧
      names = entries.map (fun x => x.1.render key) ∧
      ∀ a e, (a, e) ∈ entries → (∀ s, a = .subnet s → s.Made) →
        m.LeadsTo target r key entries (a.render key) a e := by
  have hsorted := hordered _ _ hcontent
  have hparts := Heap.tableParts_eq_ok.mpr ⟨h.typeOf_eq, hcontent⟩
  have hadmits : ∀ x ∈ entries, key.admits x.1 = true := fun x hx =>
    hh.admits_key h.typeOf_eq hcontent hx
  refine ⟨entries.map fun x => x.1.render key, fun call => h.hostKeys_gives call hcontent, ?_, ?_,
    hsorted, rfl, ?_⟩
  · -- two entries with one name would have one key
    apply List.pairwise_map.mpr
    apply hsorted.imp_of_mem
    intro x y hx hy hlt heq
    exact Atom.ne_of_compare hlt
      (Atom.render_injective (hadmits x hx) (hadmits y hy) hdistinct heq)
  · simp [Heap.tableSize, hparts, bind, Except.bind]
  · intro a e hmem hmade
    exact h.leadsTo hordered hcontent
      (AtomType.keyOfName_render (hadmits _ hmem) hdistinct hmade) hmem

/-! ### Tables with few entries -/

/-- A table of words, by counts on both sides of the last array index. -/
def wordHeap : Heap :=
  ⟨#[⟨.atom .string, .atom (.string "seven")⟩, ⟨.atom .count, .atom (.count 7)⟩,
    ⟨.atom .count, .atom (.count 4294967295)⟩,
    ⟨.table .count (some (.atom .string)),
      .table [(.count 7, ⟨1, some 0⟩), (.count 4294967295, ⟨2, some 0⟩)]⟩]⟩

/-- A set with one member, a subnet in which a bit of the host is set. -/
def strayHeap : Heap :=
  ⟨#[⟨.atom .subnet, .atom (.subnet ⟨.v4 0x0A000005#32, 8⟩)⟩,
    ⟨.table .subnet none, .table [(.subnet ⟨.v4 0x0A000005#32, 8⟩, ⟨0, none⟩)]⟩]⟩

/-- A machine in which the second object stands for a table. -/
def tableMachine (heap : Heap) (table : Ref) : Machine :=
  ⟨⟨#[⟨.ordinary, none, true, []⟩, ⟨.wrap 0, none, true, []⟩], 0, []⟩,
    { Bridge.start heap with wraps := ⟨#[⟨some table, .all, .table, .live⟩], true, 1, 0⟩ }⟩

theorem tableMachine_stands {heap : Heap} {table : Ref}
    (htype : heap.typeOf table = .table key yieldType) :
    (tableMachine heap table).Stands 1 ⟨table, .all, .table⟩ key yieldType :=
  ⟨rfl, rfl, htype⟩

theorem wordHeap_wellTyped : wordHeap.WellTyped := by decide

theorem wordHeap_ordered : wordHeap.Ordered := by decide

/-- Both counts are listed, and both names lead back. -/
theorem listed_names_lead_counts :
    let m := tableMachine wordHeap 3
    let r : Receiver := ⟨3, .all, .table⟩
    let entries : Entries Entry := [(.count 7, ⟨1, some 0⟩), (.count 4294967295, ⟨2, some 0⟩)]
    m.heap.WellTyped ∧ m.heap.Ordered ∧ m.Stands 1 r .count (some (.atom .string)) ∧
      m.heap.contentOf 3 = .table entries ∧
      m.LeadsTo 1 r .count entries "4294967295" (.count 4294967295) ⟨2, some 0⟩ := by
  intro m r entries
  have hstands : m.Stands 1 r .count (some (.atom .string)) := tableMachine_stands rfl
  refine ⟨wordHeap_wellTyped, wordHeap_ordered, hstands, rfl, ?_⟩
  obtain ⟨names, -, -, -, -, -, hlead⟩ :=
    listed_names_lead (m := m) wordHeap_wellTyped wordHeap_ordered hstands rfl trivial
  exact hlead (.count 4294967295) ⟨2, some 0⟩ (by simp) nofun

/-- The subnet is listed by a name that denotes another one, so that its member is not found. -/
theorem listed_name_strays :
    let m := tableMachine strayHeap 1
    m.heap.WellTyped ∧ m.heap.Ordered ∧ m.Stands 1 ⟨1, .all, .table⟩ .subnet none ∧
      (m.act 9 (hostKeys 1)).1.toOption = some ["10.0.0.5/8"] ∧
      (AtomType.subnet.keyOfName "10.0.0.5/8").toOption =
        some (.subnet ⟨.v4 0x0A000000#32, 8⟩) ∧
      (m.act 9 (hostHas 1 (.name "10.0.0.5/8"))).1.toOption = some false := by
  refine ⟨?_, ?_, tableMachine_stands rfl, by decide +kernel, by decide +kernel, by decide +kernel⟩
  · intro r hr
    match r with
    | 0 => exact .atom rfl
    | 1 =>
        refine .table fun a e he => ?_
        obtain ⟨rfl, rfl⟩ : a = .subnet ⟨.v4 0x0A000005#32, 8⟩ ∧ e = ⟨0, none⟩ := by
          simpa using he
        exact ⟨⟨by decide, rfl⟩, rfl, trivial⟩
  · intro r entries hr
    match r with
    | 0 => cases hr
    | 1 =>
        cases hr
        exact List.pairwise_singleton _ _
    | n + 2 => cases hr

end HostView.Script
