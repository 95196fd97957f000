import HostView.Proofs.Exposure.Traps
import HostView.Proofs.RoundTrip

/-! # Reads outside the schema

What a script asks a live record or table at a key that is a symbol or a text is answered, whatever the
key is: what the value does not have is missing without a fault, and deleting fails only for a required
field. A string that is no text is refused by every method.
-/

namespace HostView.Script

variable {call : Caller} {m : Machine} {target : ObjectId} {r : Ref} {mask : Mask} {k : Key}
  {rest : List Value} {limit : Nat}

/-- How the methods of a live value that holds `r` under the mask answer at a key. Only where something
is found do prototypes have a hand in the answer, and the value may be a vector that is too long for an
array. -/
structure Replies (call : Caller) (m : Machine) (target : ObjectId) (r : Ref) (mask : Mask) (k : Key)
    (rest : List Value) : Prop where
  has : ∃ offsets, Succeeds call m (Trap.has.perform (.object target :: k.value :: rest))
    (.bool (m.denoted (m.front r mask) k).present) { m with offsets }
  /-- What is found is described as an ordinary property, whose value stands for it. -/
  described : ∀ s limit, (m.denoted (m.front r mask) k).sight? = some s → m.Ready limit →
    m.Clear limit → (∀ v, s = .value v → m.heap.Short (2 ^ 32 - 1) v) →
      ∃ o v m', Succeeds call m (Trap.describe.perform (.object target :: k.value :: rest))
          (.object o) m' ∧ m.Grows (fun _ => True) m' ∧
        m'.object o = .plainWith (plainDescription v) ∧
        RepresentsSight m' m.heap mask m.objects.size v s
  undescribed : (m.denoted (m.front r mask) k).sight? = none →
    ∃ offsets, Succeeds call m (Trap.describe.perform (.object target :: k.value :: rest)) .undefined
      { m with offsets }
  /-- What is found is read as a value that stands for it. -/
  shown : ∀ s limit, (m.denoted (m.front r mask) k).sight? = some s → m.Ready limit →
    (∀ v, s = .value v → m.heap.Short (2 ^ 32 - 1) v) →
      ∃ v m', Succeeds call m (Trap.get.perform (.object target :: k.value :: rest)) v m' ∧
        m.Grows (fun _ => True) m' ∧ RepresentsSight m' m.heap mask m.objects.size v s
  snapshot : (m.denoted (m.front r mask) k).sight? = none → k = .name "toJSON" →
    ∃ f m', Succeeds call m (Trap.get.perform (.object target :: k.value :: rest)) (.object f) m' ∧
      m'.Snapshots f r mask ∧ m'.heap = m.heap ∧ m.toEngine.Keeps (fun _ => True) m'.toEngine
  /-- A key of the table without an entry. -/
  vacant : ∀ a, m.denoted (m.front r mask) k = .key a none → k ≠ .name "toJSON" →
    Succeeds call m (Trap.get.perform (.object target :: k.value :: rest)) .undefined m
  token : k = .symbol .tag →
    Succeeds call m (Trap.get.perform (.object target :: k.value :: rest)) (.object target) m
  /-- Every other key is read from the prototypes of the wrap. -/
  inherited : m.denoted (m.front r mask) k = .nothing → k ≠ .name "toJSON" → k ≠ .symbol .tag →
    ∃ offsets, Becomes m (Trap.get.perform (.object target :: k.value :: rest)) { m with offsets }
        (liftM (getProperty target k)) ∧
      ∀ limit ≤ m.objects.size, m.Passes limit k Property.Open limit (some Intrinsic.wrap) →
        ∃ e, Succeeds call m (Trap.get.perform (.object target :: k.value :: rest))
            (m.inherited k limit (some Intrinsic.wrap)) ⟨e, { m.toBridge with offsets }⟩ ∧
          m.toEngine.Keeps (fun _ => True) e
  undeleted : m.denoted (m.front r mask) k = .nothing →
    ∃ offsets, Succeeds call m (Trap.delete.perform (.object target :: k.value :: rest)) (.bool true)
      { m with offsets }
  cleared : ∀ i f slot, m.denoted (m.front r mask) k = .field i f slot →
    f.attributes.isOptional = true → ∃ heap offsets, m.heap.setField r i none = .ok heap ∧
      Succeeds call m (Trap.delete.perform (.object target :: k.value :: rest)) (.bool true)
        { m with heap, offsets }
  /-- This is the one case of a fault. -/
  refused : ∀ i f slot, m.denoted (m.front r mask) k = .field i f slot →
    f.attributes.isOptional = false → ∃ d record fields offsets,
      m.heap.typeOf r = .record d record fields ∧ fields[i]? = some f ∧
      mask.exposes f.attributes = true ∧
      Throws call m (Trap.delete.perform (.object target :: k.value :: rest))
        (.refused (.host (.requiredField record f.name))) { m with offsets }
  removed : ∀ a e, m.denoted (m.front r mask) k = .key a e →
    ∃ entries, m.heap.contentOf r = .table entries ∧
      Succeeds call m (Trap.delete.perform (.object target :: k.value :: rest)) (.bool true)
        { m with heap := m.heap.update r (.table (entries.erase a)) }

/-- What a live value is asked at a symbol or a text is answered. A key that names neither an exposed
field nor a key of the table denotes nothing. -/
theorem silent_reads (hh : m.heap.WellTyped) (hw : m.Wraps target r mask)
    (hlive : WrapKind.of (m.heap.typeOf r) ≠ .bare) (hk : k.WellFormed) (call : Caller)
    (rest : List Value) :
    Replies call m target r mask k rest ∧
      (m.Coherent → ¬ m.Names (m.front r mask) k → m.denoted (m.front r mask) k = .nothing) := by
  refine ⟨?_, fun hm hnames => hm.denoted_eq hnames⟩
  have hgrows := m.asked_grows (m.front r mask) k
  have hasked := m.asked_eq (m.front r mask) k
  constructor
  case has => exact ⟨_, hasked ▸ Trap.has_denoted hw hlive hk call rest⟩
  case described =>
    exact fun s limit hs hready hclear hshort =>
      Trap.describe_found hw hlive hk rest hh hready hclear hs hshort call
  case undescribed =>
    exact fun hmissing => ⟨_, hasked ▸ Trap.describe_missing hw hlive hk call rest hmissing⟩
  case shown =>
    exact fun s limit hs hready hshort => Trap.get_found hw hlive hk rest hh hready hs hshort call
  case snapshot =>
    intro hmissing hjson
    obtain ⟨f, m', hfunction, hsnapshots, hheap, hkeeps⟩ :=
      snapshotFunction_snapshots call (m.asked (m.front r mask) k) (m.front r mask)
    exact ⟨f, m', Trap.get_snapshot hw hlive hk rest hmissing hjson hfunction, hsnapshots,
      hheap.trans hgrows.heap, hgrows.engine.trans hkeeps⟩
  case vacant =>
    intro a hkey hjson
    have htag : k ≠ .symbol .tag := by
      rintro rfl
      cases hkey
    obtain ⟨key, yield, htype⟩ := Machine.denoted_key hkey
    have hvacant := Trap.get_vacant hw hlive hk call rest hkey hjson htag
    rwa [Machine.asked_table htype] at hvacant
  case token =>
    rintro rfl
    exact performTrap_tag rest hw.receiver
  case inherited =>
    intro hnothing hjson htag
    have hinherited := Trap.get_inherited hw hlive hk rest hnothing hjson htag
    refine ⟨_, hasked ▸ hinherited, fun limit hlimit hpasses => ?_⟩
    obtain ⟨e, hread, hkeeps⟩ :=
      Trap.get_open hw hlive hk call rest hnothing hjson htag hlimit hpasses
    exact ⟨e, hasked ▸ hread, hkeeps⟩
  case undeleted =>
    exact fun hnothing => ⟨_, hasked ▸ Trap.delete_nothing hw hlive hk call rest hnothing⟩
  case cleared =>
    intro i f slot hfield hoptional
    obtain ⟨d, record, fields, htype, hf, -⟩ := Machine.denoted_field hfield
    obtain ⟨heap, hclears⟩ | ⟨hrequired, -⟩ := hh.clearField htype hf
    · exact ⟨heap, _, hclears, hasked ▸ Trap.delete_cleared hw hlive hk call rest hfield hclears⟩
    · rw [hoptional] at hrequired
      cases hrequired
  case refused =>
    intro i f slot hfield hrequired
    obtain ⟨d, record, fields, htype, hf, hexposes⟩ := Machine.denoted_field hfield
    have hclear := hh.setField_none htype hf hrequired
    exact ⟨d, record, fields, _, htype, hf, hexposes,
      hasked ▸ Trap.delete_refused hw hlive hk call rest hfield hclear⟩
  case removed =>
    intro a e hkey
    obtain ⟨key, yield, htype⟩ := Machine.denoted_key hkey
    obtain ⟨entries, hcontent⟩ := hh.table_entries htype
    exact ⟨entries, hcontent, Trap.delete_removed hw hlive hk call rest hkey hcontent⟩

/-! ### A live memo -/

/-- A memo with a text, which is required, and no mark. -/
def memoHeap : Heap :=
  ⟨#[⟨.atom .string, .atom (.string "a")⟩,
    ⟨.record 0 "memo" [⟨"text", .atom .string, .none⟩, ⟨"mark", .atom .string, .optional⟩],
      .record [some 0, none]⟩]⟩

/-- A script has been shown the memo. -/
def memoMachine : Machine :=
  ⟨{ portEngine [] with
      objects := ((portEngine []).objects.push ⟨.wrap 0, some Intrinsic.wrap, true, []⟩).push
        ⟨.proxy 12 Intrinsic.bridge, none, true, []⟩ },
    { Bridge.start memoHeap with wraps := ⟨#[⟨some 1, .all, .record, .live⟩], true, 1, 0⟩ }⟩

theorem memoHeap_wellTyped : memoHeap.WellTyped := by decide

theorem memoMachine_wraps : memoMachine.Wraps 12 1 .all := ⟨by decide, 0, .live, rfl, rfl⟩

theorem memoMachine_ready : memoMachine.Ready 12 := by
  have hkeeps : (portEngine []).Keeps (· < 12) memoMachine.toEngine := .trans (.push _) (.push _)
  exact ⟨portEngine_intact.keeps hkeeps (Nat.le_refl _), by decide, IntegerCache.exact_empty⟩

theorem memoMachine_coherent : memoMachine.Coherent :=
  ⟨fun _ => ["text", "mark"], by decide, OffsetCache.coherent_empty⟩

theorem memoMachine_denoted (name : String) :
    memoMachine.denoted (memoMachine.front 1 .all) (.name name) =
      if name = "text" then .field 0 ⟨"text", .atom .string, .none⟩ (some 0)
      else if name = "mark" then .field 1 ⟨"mark", .atom .string, .optional⟩ none
      else .nothing := by
  have hshown := memoMachine_coherent.shownField?_eq (w := memoMachine.front 1 .all) rfl (by decide) name
  rw [Machine.denoted_record rfl, hshown]
  by_cases htext : name = "text"
  · subst htext
    rfl
  by_cases hmark : name = "mark"
  · subst hmark
    rfl
  rw [if_neg htext, if_neg hmark, exposedAt?, fieldOffset?]
  simp [List.findIdx?_cons, Ne.symm htext, Ne.symm hmark]

/-- The required field is read and not deleted, the other one is undefined and is, and a name of a
method of all objects denotes nothing. -/
theorem silent_reads_memo :
    let m := memoMachine
    m.heap.WellTyped ∧ m.Wraps 12 1 .all ∧ WrapKind.of (m.heap.typeOf 1) ≠ .bare ∧
      (Key.name "text").WellFormed ∧ m.Ready 12 ∧
      (∃ v m', Succeeds (invoke 9) m (Trap.get.perform [.object 12, .string "text"]) v m' ∧
        Represents m' m.heap .all m.objects.size v 0) ∧
      (∃ offsets, Throws (invoke 9) m (Trap.delete.perform [.object 12, .string "text"])
        (.refused (.host (.requiredField "memo" "text"))) { m with offsets }) ∧
      (∃ offsets, Succeeds (invoke 9) m (Trap.has.perform [.object 12, .string "mark"]) (.bool false)
        { m with offsets }) ∧
      ∃ offsets, Succeeds (invoke 9) m (Trap.delete.perform [.object 12, .string "toString"])
        (.bool true) { m with offsets } := by
  intro m
  have hlive : WrapKind.of (m.heap.typeOf 1) ≠ .bare := nofun
  have hreplies (name : String) := (silent_reads memoHeap_wellTyped memoMachine_wraps hlive
    (Key.wellFormed_name name) (invoke 9) []).1
  refine ⟨memoHeap_wellTyped, memoMachine_wraps, hlive, Key.wellFormed_name _, memoMachine_ready, ?_, ?_, ?_, ?_⟩
  · obtain ⟨v, m', hread, -, hv⟩ := (hreplies "text").shown (.value 0) 12
      (by rw [memoMachine_denoted]; rfl) memoMachine_ready (by rintro v ⟨⟩; exact .other nofun)
    exact ⟨v, m', hread, hv⟩
  · obtain ⟨d, record, fields, offsets, htype, -, -, hthrows⟩ :=
      (hreplies "text").refused 0 ⟨"text", .atom .string, .none⟩ (some 0) (memoMachine_denoted _) rfl
    cases htype
    exact ⟨offsets, hthrows⟩
  · have hhas := (hreplies "mark").has
    rw [memoMachine_denoted] at hhas
    exact hhas
  · exact (hreplies "toString").undeleted (memoMachine_denoted _)

theorem memoMachine_sound : memoMachine.Sound :=
  Machine.sound_iff.mpr ⟨memoHeap_wellTyped, by decide, nofun, IntegerCache.exact_empty⟩

/-- A string with half of a pair names nothing of the memo, and yet all four methods throw. -/
theorem reads_refused_memo :
    let m := memoMachine
    let k := Key.string (.illFormed ⟨[0xD800], 0, rfl⟩)
    m.Sound ∧ m.Coherent ∧ m.Wraps 12 1 .all ∧ WrapKind.of (m.heap.typeOf 1) ≠ .bare ∧
      ¬ m.Names (m.front 1 .all) k ∧
      Throws (invoke 9) m (Trap.get.perform [.object 12, k.value]) (.illFormedKey 0) m ∧
      Throws (invoke 9) m (Trap.has.perform [.object 12, k.value]) (.illFormedKey 0) m ∧
      Throws (invoke 9) m (Trap.describe.perform [.object 12, k.value]) (.illFormedKey 0) m ∧
      Throws (invoke 9) m (Trap.delete.perform [.object 12, k.value]) (.illFormedKey 0) m := by
  intro m k
  have hthrows {t : Trap} (ht : t ∈ [.get, .has, .delete, .describe]) :=
    Trap.perform_illFormed memoMachine_wraps.receiver (invoke 9) ⟨[0xD800], 0, rfl⟩ [] ht
  refine ⟨memoMachine_sound, memoMachine_coherent, memoMachine_wraps, nofun, ?_, ?_⟩
  · rintro (⟨f, -, -, hk⟩ | ⟨key, yield, name, a, -, hk, -⟩)
    · exact Key.wellFormed_name _ _ hk.symm
    · exact Key.wellFormed_name _ _ hk.symm
  · exact ⟨hthrows (by simp), hthrows (by simp), hthrows (by simp), hthrows (by simp)⟩

end HostView.Script
