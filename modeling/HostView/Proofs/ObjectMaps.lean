import HostView.Proofs.Exposure.Seclusion
import HostView.Proofs.FaultPaths
import HostView.Proofs.Script.Listing
import Mathlib.Data.List.Dedup

/-! # Maps made of objects

A map is made of an object name by name. Each name is a key, and the conversion of its property replaces
what an earlier name of the same key has left there. So the last name of a key decides, and the map is as
large as the list of names only if no two of them denote one key. Main statement: `last_name_decides`.
-/

namespace HostView

/-- The key that a listed name denotes. -/
def AtomType.keyOf? (τ : AtomType) : ScriptString → Option Atom
  | .text name => (τ.keyOfName name).toOption
  | .illFormed _ => none

theorem AtomType.keyOf?_text {τ : AtomType} {name : String} {a : Atom} (h : τ.keyOfName name = .ok a) :
    τ.keyOf? (.text name) = some a := by
  rw [keyOf?, h]
  rfl

namespace Script

variable {n : Nat} {call : Caller} {m m₁ m₂ m₃ m' : Machine} {key : AtomType} {yield : HostType}
  {r k s : Ref} {v item : Value} {o : ObjectId} {entries : Entries Entry} {text : String}
  {names : List ScriptString} {heap : Heap}

/-! ### Filling a map -/

/-- A map that is being filled has these entries so far. -/
structure Filling (key : AtomType) (yield : HostType) (r : Ref) (entries : Entries Entry) (m : Machine) :
    Prop extends m.Filling r (.table key (some yield)) (.table entries) where
  sorted : entries.Sorted

/-- One entry is dealt with: it is put in at the key of the name. -/
theorem Filling.stored (h : Filling key yield r entries m)
    (hname : Succeeds (invoke n) m (Piece.name key text).convert k m₁)
    (hread : Gives (invoke n) m₁ (readProperty o (.name text)) item m₂)
    (hconvert : Succeeds (invoke n) m₂ (Piece.value yield item).convert s m₃)
    (hstore : m₃.heap.tableAssign r k (some s) = .ok heap) :
    ∃ a, key.keyOfName text = .ok a ∧
      Filling key yield r (entries.insert a ⟨k, some s⟩) { m₃ with heap } := by
  obtain ⟨a, hkey, hspares₁, hk, hatom⟩ := h.secludes.keyOfName hname
  have hspares₂ := hspares₁.secludes.routine hread
  obtain ⟨hspares₃, hs⟩ := hspares₂.secludes.conversion hconvert
  have hgrows := hspares₂.grows.trans hspares₃.grows
  have hyield : m₃.heap.YieldFits (some yield) (some s) := hs
  have hlater := h.spared (hspares₁.trans (hspares₂.trans hspares₃))
  obtain ⟨g, hassign, hfilling⟩ :=
    hlater.tableAssign (hk.extend hgrows) (hgrows.atom_eq hk.lt hatom) hyield
  obtain rfl := Except.ok.inj (hassign.symm.trans hstore)
  exact ⟨a, hkey, hfilling, h.sorted.insert a _⟩

/-- What some names make of the entries of a map. -/
structure Enters (key : AtomType) (names : List ScriptString) (entries entries' : Entries Entry) :
    Prop where
  keys : ∀ a, a ∈ entries'.map (·.1) ↔ a ∈ entries.map (·.1) ∨ some a ∈ names.map key.keyOf?
  others : ∀ a e, some a ∉ names.map key.keyOf? → ((a, e) ∈ entries' ↔ (a, e) ∈ entries)

theorem Enters.insert {entries' : Entries Entry} {name : ScriptString} {a : Atom} {e : Entry}
    (hname : key.keyOf? name = some a) (hsorted : entries.Sorted)
    (h : Enters key names (entries.insert a e) entries') : Enters key (name :: names) entries entries' where
  keys b := by
    have hkeys : b ∈ (entries.insert a e).map (·.1) ↔ b ∈ entries.map (·.1) ∨ b = a := by
      simp only [List.mem_map, Prod.exists, exists_and_right, exists_eq_right, hsorted.mem_insert_iff]
      by_cases hb : b = a <;> simp [hb]
    rw [h.keys, hkeys, List.map_cons, hname, List.mem_cons, Option.some_inj, or_assoc]
  others b e' hb := by
    rw [List.map_cons, hname, List.mem_cons, Option.some_inj, not_or] at hb
    rw [h.others b e' hb.2, hsorted.mem_insert_iff, if_neg hb.1]

/-- The names are dealt with one after the other. -/
theorem Filling.rounds (h : Filling key yield r entries m)
    (hrounds : Rounds (EntryConverts (invoke n) key yield o r) names m m') :
    ∃ entries', Filling key yield r entries' m' ∧ Enters key names entries entries' := by
  induction names generalizing m entries with
  | nil =>
      cases hrounds
      exact ⟨entries, h, fun a => by simp, fun a e _ => .rfl⟩
  | cons name names ih =>
      cases hrounds with
      | cons hfirst hrest =>
          obtain ⟨hname, hread, hconvert, hstore⟩ := hfirst
          obtain ⟨a, hkey, hstored⟩ := h.stored hname hread hconvert hstore
          obtain ⟨entries', hfilled, henters⟩ := ih hstored hrest
          exact ⟨entries', hfilled, henters.insert (AtomType.keyOf?_text hkey) h.sorted⟩

/-- When a name's turn comes, its entry is put in, and stays if no later name denotes the same key. -/
theorem Filling.turn {entries' : Entries Entry} {done rest : List ScriptString} {name : ScriptString}
    (h : Filling key yield r entries m)
    (hrounds : Rounds (EntryConverts (invoke n) key yield o r) (done ++ name :: rest) m m')
    (hcell : m'.heap.cell r = ⟨.table key (some yield), .table entries'⟩) :
    ∃ text a k item s m₁ m₂ m₃ m₄, name = .text text ∧ key.keyOfName text = .ok a ∧
      Rounds (EntryConverts (invoke n) key yield o r) done m m₁ ∧
      Succeeds (invoke n) m₁ (Piece.name key text).convert k m₂ ∧
      Gives (invoke n) m₂ (readProperty o (.name text)) item m₃ ∧
      Succeeds (invoke n) m₃ (toHost yield item) s m₄ ∧
      (some a ∉ rest.map key.keyOf? → (a, ⟨k, some s⟩) ∈ entries') := by
  obtain ⟨m₁, hdone, hturn⟩ := Rounds.append_iff.mp hrounds
  obtain ⟨before, hbefore, -⟩ := h.rounds hdone
  cases hturn with
  | cons hfirst hrest =>
      obtain ⟨hname, hread, hconvert, hstore⟩ := hfirst
      obtain ⟨a, hkey, hstored⟩ := hbefore.stored hname hread hconvert hstore
      refine ⟨_, a, _, _, _, m₁, _, _, _, rfl, hkey, hdone, hname, hread, hconvert, fun hlast => ?_⟩
      obtain ⟨after, hafter, hlater⟩ := hstored.rounds hrest
      have hsame := congrArg Cell.content (hcell.symm.trans hafter.cell_eq)
      obtain rfl : entries' = after := Content.table.inj hsame
      rw [hlater.others _ _ hlast, hbefore.sorted.mem_insert_iff, if_pos rfl]

/-! ### Maps -/

/-- A map is made of an object with the listed names, all of which are dealt with. -/
inductive Collects (call : Caller) (m : Machine) (key : AtomType) (yield : HostType) (v : Value)
    (o : ObjectId) (names : List ScriptString) (r : Ref) (m' : Machine) : Prop where
  | intro {m₁ m₂ : Machine} (hbegins : Begins call m (.table key (some yield)) v o m₁)
      (hnew : r = m₁.heap.cells.size)
      (hnames : Gives call (m₁.opened (.table key (some yield))) (enumerableNames o) names m₂)
      (hrounds : Rounds (EntryConverts call key yield o m₁.heap.cells.size) names m₂ m')

/-- The entries have come about from the names: every name is a key, its property was read and converted
in its turn, and the last name of a key has left its entry there. -/
structure KeepsLast (call : Caller) (m : Machine) (key : AtomType) (yield : HostType) (v : Value)
    (names : List ScriptString) (entries : Entries Entry) : Prop where
  converted : ∀ done name rest, names = done ++ name :: rest → ∃ text a item m₁ s m₂,
    name = .text text ∧ key.keyOfName text = .ok a ∧
    Reaches call m (.value (.table key (some yield)) v) (.key text) m₁ (.value yield item) ∧
    Succeeds call m₁ (toHost yield item) s m₂ ∧
    (some a ∉ rest.map key.keyOf? → ∃ k, (a, ⟨k, some s⟩) ∈ entries)
  keys : ∀ a, a ∈ entries.map (·.1) ↔ some a ∈ names.map key.keyOf?
  length_eq : entries.length = (names.map key.keyOf?).dedup.length
  faithful_iff : entries.length = names.length ↔ (names.map key.keyOf?).Nodup

/-- Distinct keys that are those of a list are as many as differ there. -/
theorem length_eq_dedup {keys : List Atom} {others : List (Option Atom)} (hkeys : keys.Nodup)
    (hsame : ∀ x, x ∈ others ↔ ∃ a ∈ keys, x = some a) : keys.length = others.dedup.length := by
  have hperm : (keys.map some).Perm others.dedup := by
    refine (List.perm_ext_iff_of_nodup (hkeys.map (Option.some_injective _)) others.nodup_dedup).mpr ?_
    intro x
    rw [List.mem_dedup, hsame]
    simp [eq_comm]
  rw [← hperm.length_eq, List.length_map]

theorem length_dedup_eq_iff {α : Type} [DecidableEq α] {xs : List α} :
    xs.dedup.length = xs.length ↔ xs.Nodup := by
  rw [← List.dedup_eq_self]
  exact ⟨fun h => xs.dedup_sublist.eq_of_length h, fun h => by rw [h]⟩

/-- A machine is sound when a host value has been looked for. -/
theorem Begins.sound {type : HostType} (hm : m.Sound) (h : Begins (invoke n) m type v o m₁) : m₁.Sound := by
  have hheld : (Discipline.kin (.ofMasks fun _ => True) False 0).Agrees (invoke n) m.toEngine m.toBridge
      m.toBridge (heldOf? type v) (heldOf? type v) _ fun _ => True :=
    heldOf?_agrees (invoke_lawful _ 0 n) hm.kin type v
  have hkin := hheld.alike
  have hrun : ((heldOf? type v).run.run (invoke n)).run ⟨m.toEngine, m.toBridge⟩ = (.ok none, m₁) :=
    h.unheld
  rw [hrun] at hkin
  exact hkin.twins

section

variable (hm : m.Sound)

include hm

/-- The map is empty when the names have been listed. -/
theorem Begins.filling (hbegins : Begins (invoke n) m (.table key (some yield)) v o m₁)
    (hnames : Gives (invoke n) (m₁.opened (.table key (some yield))) (enumerableNames o) names m₂) :
    Filling key yield m₁.heap.cells.size [] m₂ := by
  have hopened : (m₁.opened (.table key (some yield))).Filling m₁.heap.cells.size (.table key (some yield))
      (.table []) := .opened (hbegins.sound hm).kin rfl Content.blank_table
  exact ⟨hopened.spared (hopened.secludes.routine hnames), Entries.sorted_nil⟩

theorem Collects.keepsLast (h : Collects (invoke n) m key yield v o names r m') :
    ∃ entries, m'.heap.cell r = ⟨.table key (some yield), .table entries⟩ ∧
      KeepsLast (invoke n) m key yield v names entries := by
  obtain @⟨m₁, m₂, hbegins, rfl, hnames, hrounds⟩ := h
  have hstart := hbegins.filling hm hnames
  obtain ⟨entries, hfilled, henters⟩ := hstart.rounds hrounds
  have hkeys : ∀ a, a ∈ entries.map (·.1) ↔ some a ∈ names.map key.keyOf? := by simpa using henters.keys
  have hconverted : ∀ done name rest, names = done ++ name :: rest → ∃ text a item m₁ s m₂,
      name = .text text ∧ key.keyOfName text = .ok a ∧
      Reaches (invoke n) m (.value (.table key (some yield)) v) (.key text) m₁ (.value yield item) ∧
      Succeeds (invoke n) m₁ (toHost yield item) s m₂ ∧
      (some a ∉ rest.map key.keyOf? → ∃ k, (a, ⟨k, some s⟩) ∈ entries) := by
    rintro done name rest rfl
    obtain ⟨text, a, k, item, s, m₃, m₄, m₅, m₆, rfl, hkey, hdone, hname, hread, hconvert, hlast⟩ :=
      hstart.turn hrounds hfilled.cell_eq
    have hat : AtEntry (invoke n) m key yield v o (.text text) m₃ :=
      .intro hbegins hnames (.intro rfl hdone)
    exact ⟨text, a, item, m₅, s, m₆, rfl, hkey, .entry hat hname hread, hconvert, fun h => ⟨k, hlast h⟩⟩
  have hdenote : ∀ x ∈ names.map key.keyOf?, ∃ a, x = some a := by
    rintro _ hx
    obtain ⟨name, hname, rfl⟩ := List.mem_map.mp hx
    obtain ⟨done, rest, hsplit⟩ := List.append_of_mem hname
    obtain ⟨text, a, -, -, -, -, rfl, hkey, -⟩ := hconverted done name rest hsplit
    exact ⟨a, AtomType.keyOf?_text hkey⟩
  have hlength : entries.length = (names.map key.keyOf?).dedup.length := by
    rw [← List.length_map (·.1)]
    refine length_eq_dedup hfilled.sorted.nodup fun x => ⟨fun hx => ?_, ?_⟩
    · obtain ⟨a, rfl⟩ := hdenote x hx
      exact ⟨a, (hkeys a).mpr hx, rfl⟩
    · rintro ⟨a, ha, rfl⟩
      exact (hkeys a).mp ha
  refine ⟨entries, hfilled.cell_eq, hconverted, hkeys, hlength, ?_⟩
  have hnames : (names.map key.keyOf?).length = names.length := List.length_map _
  rw [hlength, ← hnames]
  exact length_dedup_eq_iff

/-- A map is made of an object by entering the properties that are listed, of which the last one decides at
every key. So it has as many entries as properties are listed exactly if no two names denote one key. Of an
object that is no proxy and stands for no host value, its own enumerable properties are listed. -/
theorem last_name_decides (n : Nat) (key : AtomType) (yield : HostType) (v : Value) (r : Ref)
    (m' : Machine) :
    (Succeeds (invoke n) m (toHost (.table key (some yield)) v) r m' ↔
      Succeeds (invoke n) m (heldOf? (.table key (some yield)) v) (some r) m' ∨
      ∃ o names, Collects (invoke n) m key yield v o names r m') ∧
    ∀ o names, Collects (invoke n) m key yield v o names r m' →
      (Unheld (invoke n) m v → o < m.objects.size → (m.object o).isProxy = false →
        (m.object o).Settled → names = (m.object o).enumerableNames) ∧
      ∃ entries, m'.heap.cell r = ⟨.table key (some yield), .table entries⟩ ∧
        KeepsLast (invoke n) m key yield v names entries := by
  refine ⟨?_, fun o names h => ⟨fun hunheld ho hproxy hsettled => ?_, h.keepsLast hm⟩⟩
  · rw [succeeds_composite_iff rfl]
    refine or_congr_right ⟨?_, ?_⟩
    · rintro ⟨o, m₁, hbegins, rfl, hfill⟩
      obtain ⟨names, m₂, hnames, hrounds⟩ :=
        (succeeds_forNames_iff succeeds_convertEntry_iff nofun).mp hfill
      exact ⟨o, names, .intro hbegins rfl hnames hrounds⟩
    · rintro ⟨o, names, hbegins, rfl, hnames, hrounds⟩
      refine ⟨o, _, hbegins, rfl, ?_⟩
      exact (succeeds_forNames_iff succeeds_convertEntry_iff nofun).mpr ⟨names, _, hnames, hrounds⟩
  · obtain @⟨m₁, m₂, hbegins, rfl, hnames, -⟩ := h
    obtain ⟨-, rfl⟩ := hbegins.unheld.unique hunheld.heldOf?
    obtain ⟨e, hown⟩ := enumerableNames_own (m := m₁.opened (.table key (some yield))) (invoke n) ho hproxy
      hsettled
    exact (Succeeds.unique (Succeeds.routine hnames) (Succeeds.routine hown)).1

end

/-- An object with two properties, whose names are numerals of one number. -/
def numeralEngine : Engine :=
  ⟨#[⟨.ordinary, none, true, [(.name "7", .plain (.int 1)), (.name "07", .plain (.int 2))]⟩], 0, []⟩

theorem last_name_decides_numerals :
    let m : Machine := ⟨numeralEngine, .start ⟨#[]⟩⟩
    m.Sound ∧ ∃ r m' o names entries,
      Succeeds (invoke 9) m (toHost (.table .count (some (.atom .int))) (.object 0)) r m' ∧
      Collects (invoke 9) m .count (.atom .int) (.object 0) o names r m' ∧
      m'.heap.cell r = ⟨.table .count (some (.atom .int)), .table entries⟩ ∧
      KeepsLast (invoke 9) m .count (.atom .int) (.object 0) names entries := by
  intro m
  have hm : m.Sound := sound_start (by decide)
  have hresult : (m.act 9 (toHost (.table .count (some (.atom .int))) (.object 0))).1 = .ok 0 := by
    decide +kernel
  have hsucceeds : Succeeds (invoke 9) m (toHost (.table .count (some (.atom .int))) (.object 0)) 0
      (m.act 9 (toHost (.table .count (some (.atom .int))) (.object 0))).2 := Prod.ext hresult rfl
  have hunheld : (m.act 9 (heldOf? (.table .count (some (.atom .int))) (.object 0))).1 = .ok none := by
    decide +kernel
  obtain ⟨hmade, hkept⟩ := last_name_decides hm 9 .count (.atom .int) (.object 0) 0 _
  obtain hheld | ⟨o, names, hcollects⟩ := hmade.mp hsucceeds
  · have hsome : (m.act 9 (heldOf? (.table .count (some (.atom .int))) (.object 0))).1 = .ok (some 0) :=
      congrArg Prod.fst hheld
    cases hunheld.symm.trans hsome
  · obtain ⟨-, entries, hcell, hlast⟩ := hkept o names hcollects
    exact ⟨hm, 0, _, o, names, entries, hsucceeds, hcollects, hcell, hlast⟩

/-- Two properties make one entry where their names denote one key, and the first one is lost. -/
theorem object_loses_entry :
    let m : Machine := ⟨numeralEngine, .start ⟨#[]⟩⟩
    m.Sound ∧ (m.object 0).enumerableNames = [.text "7", .text "07"] ∧
      ∃ r m', Succeeds (invoke 9) m (toHost (.table .count (some (.atom .int))) (.object 0)) r m' ∧
        m'.heap.tableSize r = .ok 1 := by
  intro m
  have hresult : (m.act 9 (toHost (.table .count (some (.atom .int))) (.object 0))).1 = .ok 0 := by
    decide +kernel
  have hsize : (m.act 9 (toHost (.table .count (some (.atom .int))) (.object 0))).2.heap.tableSize 0 =
      .ok 1 := by
    decide +kernel
  exact ⟨sound_start (by decide), by decide +kernel, _, _, Prod.ext hresult rfl, hsize⟩

end Script

end HostView
