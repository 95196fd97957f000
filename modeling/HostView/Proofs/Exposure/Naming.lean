import HostView.Exposure.Reading
import HostView.Proofs.Net.Literals
import HostView.Proofs.Text.Numerals
import Mathlib.Data.List.Nodup

/-! # Names of keys

The text of a key is a name that denotes the key, for every type of keys. A name is an array index exactly if
it is the decimal form of a number below the last of 32 bits: digits alone, without a sign or a leading zero.
Such a name takes a way of its own to the key, but ends where every other name would.
-/

namespace HostView

/-! ### Integers as text -/

namespace Decimal

theorem uint64?_ofNat (c : UInt64) : uint64? (ofNat c.toNat) = some c := by
  have hread : natural? (2 ^ 64 - 1) (ofNat c.toNat) = some c.toNat :=
    natural?_ofNat (Nat.le_of_lt_succ c.toNat_lt)
  rw [uint64?, hread, Option.map_some, UInt64.ofNat_toNat]

theorem signed?_digits (n : Nat) : signed? (digits n) = some (n : Int) := by
  unfold signed?
  split
  next rest hdigits =>
    have hminus : '-' ∈ Nat.toDigits 10 n := by
      rw [← digits, hdigits]
      exact List.mem_cons_self
    obtain ⟨d, -, hd⟩ := Nat.exists_of_mem_toDigits (by omega) hminus
    simp at hd
  next rest hdigits =>
    have hplus : '+' ∈ Nat.toDigits 10 n := by
      rw [← digits, hdigits]
      exact List.mem_cons_self
    obtain ⟨d, -, hd⟩ := Nat.exists_of_mem_toDigits (by omega) hplus
    simp at hd
  next =>
    rw [ofDigits?_digits]
    rfl

theorem signed?_ofInt (i : Int) : signed? (ofInt i).toList = some i := by
  cases i with
  | ofNat n =>
      rw [ofInt, ofNat, String.toList_ofList]
      exact signed?_digits n
  | negSucc n =>
      rw [ofInt, String.toList_ofList, signed?, ofDigits?_digits]
      rfl

theorem int64?_ofInt {i : Int} (hlow : -2 ^ 63 ≤ i) (hhigh : i < 2 ^ 63) :
    int64? (ofInt i) = some (.ofInt i) := by
  rw [int64?, signed?_ofInt]
  exact if_pos ⟨hlow, hhigh⟩

/-- Different numbers are written differently. -/
theorem ofNat_injective {n k : Nat} (h : ofNat n = ofNat k) : n = k := by
  have hn := natural?_ofNat (Nat.le_add_right n k)
  have hk := natural?_ofNat (Nat.le_add_left k n)
  rw [h, hk] at hn
  exact (Option.some.inj hn).symm

end Decimal

/-! ### Array indices -/

/-- An array index is a name in the decimal form of a number below the last of 32 bits. -/
theorem arrayIndex?_eq_some {name : String} {index : Nat} :
    arrayIndex? name = some index ↔ name = Decimal.ofNat index ∧ index < 2 ^ 32 - 1 := by
  unfold arrayIndex?
  constructor
  · intro h
    split at h
    next n hn =>
      split at h
      next hform =>
        cases h
        have hle : index ≤ 2 ^ 32 - 1 := by
          unfold Decimal.natural? at hn
          split at hn
          next =>
            split at hn
            next hle => exact Option.some.inj hn ▸ hle
            next => cases hn
          next => cases hn
        exact ⟨hform.2.symm, by omega⟩
      next => cases h
    next => cases h
  · rintro ⟨rfl, hlt⟩
    rw [Decimal.natural?_ofNat (Nat.le_of_lt hlt)]
    exact if_pos ⟨by omega, rfl⟩

/-- The direct way from an array index gives the key that its decimal form denotes. -/
theorem AtomType.keyOfIndex_eq (τ : AtomType) {index : Nat} (hindex : index < 2 ^ 32 - 1) :
    τ.keyOfIndex index = τ.keyOfName (Decimal.ofNat index) := by
  cases τ with
  | count =>
      have hread : Decimal.natural? (2 ^ 64 - 1) (Decimal.ofNat index) = some index :=
        Decimal.natural?_ofNat (by omega)
      simp only [keyOfIndex, keyOfName, Decimal.uint64?, hread, Option.map_some]
  | int =>
      have hread : Decimal.int64? (Decimal.ofNat index) = some (.ofInt index) :=
        Decimal.int64?_ofInt (i := index) (by omega) (by omega)
      simp only [keyOfIndex, keyOfName, hread]
      rfl
  | _ => rfl

namespace PropertyName

variable {name : String} {p : PropertyName} {τ : AtomType}

/-- Sorting a name keeps its text. -/
theorem render_of_ofKey (h : ofKey (.name name) = .ok p) : p.render = name := by
  unfold Script.Key.name ofKey at h
  dsimp only at h
  split at h
  next i hi =>
    cases h
    exact (arrayIndex?_eq_some.mp hi).1.symm
  next =>
    cases h
    rfl

theorem ofKey_name (name : String) : ∃ p, ofKey (.name name) = .ok p ∧ ∀ s, p ≠ .symbol s := by
  unfold Script.Key.name ofKey
  dsimp only
  split
  next i _ => exact ⟨_, rfl, nofun⟩
  next => exact ⟨_, rfl, nofun⟩

/-- A sorted name denotes the key that the name denotes. -/
theorem toAtom_of_ofKey (h : ofKey (.name name) = .ok p) : p.toAtom τ = τ.keyOfName name := by
  unfold Script.Key.name ofKey at h
  dsimp only at h
  split at h
  next i hi =>
    cases h
    obtain ⟨rfl, hlt⟩ := arrayIndex?_eq_some.mp hi
    exact τ.keyOfIndex_eq hlt
  next =>
    cases h
    rfl

end PropertyName

/-! ### The text of a key -/

/-- No two variants have one name. -/
def AtomType.Distinct : AtomType → Prop
  | .enum e => e.variants.Nodup
  | _ => True

/-- Variants that have different names are told apart. -/
theorem Enumeration.index?_eq {e : Enumeration} {i : Nat} {name : String}
    (hdistinct : e.variants.Nodup) (hname : e.variant? i = some name) : e.index? name = some i := by
  obtain ⟨hi, hvariant⟩ := List.getElem?_eq_some_iff.mp hname
  refine List.findIdx?_eq_some_iff_getElem.mpr ⟨hi, decide_eq_true hvariant, ?_⟩
  intro j hj heq
  have hsame := of_decide_eq_true heq
  exact absurd (hdistinct.getElem_inj_iff.mp (hsame.trans hvariant.symm)) (Nat.ne_of_lt hj)

/-- The text of a key denotes it. -/
theorem AtomType.keyOfName_render {τ : AtomType} {a : Atom} (hadmits : τ.admits a = true)
    (hdistinct : τ.Distinct) (hmade : ∀ s, a = .subnet s → s.Made) :
    τ.keyOfName (a.render τ) = .ok a := by
  have hkind := hadmits
  cases τ <;> cases a <;> simp only [admits, Bool.false_eq_true] at hkind <;>
    simp only [Atom.render, Atom.renderOr, keyOfName]
  case bool.bool b => cases b <;> rfl
  case int.int i =>
    rw [Decimal.int64?_ofInt i.le_toInt i.toInt_lt]
    simp
  case count.count c => rw [Decimal.uint64?_ofNat]
  case addr.addr a => rw [Address.parse?_render]
  case subnet.subnet s => rw [(hmade s rfl).parse_render]
  case port.port p => rw [Port.parse_render]
  case enum.enum e index =>
    obtain ⟨name, hvariant⟩ : ∃ name, e.variant? index = some name :=
      ⟨_, List.getElem?_eq_getElem (of_decide_eq_true hkind)⟩
    rw [hvariant, Option.getD_some, Enumeration.index?_eq hdistinct hvariant]

theorem AtomType.admits_of_index? {e : Enumeration} {name : String} {i : Nat}
    (hi : e.index? name = some i) : (AtomType.enum e).admits (.enum i) = true :=
  decide_eq_true (List.findIdx?_eq_some_iff_getElem.mp hi).1

/-- A name denotes keys of the type only. -/
theorem AtomType.admits_of_keyOfName {τ : AtomType} {name : String} {a : Atom}
    (h : τ.keyOfName name = .ok a) : τ.admits a = true := by
  unfold keyOfName at h
  cases τ with
  | bool =>
      dsimp only at h
      split at h
      · cases h
        rfl
      · split at h <;> cases h
        rfl
  | string =>
      cases h
      rfl
  | enum e =>
      dsimp only at h
      split at h
      next index hindex =>
        cases h
        exact admits_of_index? hindex
      next => cases h
  | _ =>
      dsimp only at h
      split at h <;> cases h
      rfl

/-- The literal of a subnet tells its fields, even where it is not read back. -/
theorem Subnet.render_injective {s t : Subnet} (h : s.render = t.render) : s = t := by
  have hs := splitSlash?_append (Address.slash_notMem_render s.network) (Decimal.ofNat s.length)
  have ht := splitSlash?_append (Address.slash_notMem_render t.network) (Decimal.ofNat t.length)
  rw [← render] at hs ht
  rw [h, ht, Option.some.injEq, Prod.mk.injEq] at hs
  have hnetwork := Address.parse?_render s.network
  rw [← hs.1, Address.parse?_render, Option.some.injEq] at hnetwork
  have hlength := Decimal.ofNat_injective hs.2
  cases s
  cases t
  simp_all

/-- Different keys have different texts. -/
theorem Atom.render_injective {τ : AtomType} {a b : Atom} (ha : τ.admits a = true)
    (hb : τ.admits b = true) (hdistinct : τ.Distinct) (h : a.render τ = b.render τ) : a = b := by
  by_cases hsubnet : τ = .subnet
  · subst hsubnet
    cases a <;> cases b <;> simp only [AtomType.admits, Bool.false_eq_true] at ha hb
    exact congrArg _ (Subnet.render_injective h)
  · have hother {c : Atom} (hc : τ.admits c = true) : ∀ s, c = .subnet s → s.Made := by
      rintro s rfl
      cases τ <;> simp_all [AtomType.admits]
    have hread := AtomType.keyOfName_render ha hdistinct (hother ha)
    rw [h, AtomType.keyOfName_render hb hdistinct (hother hb)] at hread
    exact (Except.ok.inj hread).symm

/-! ### Names that are array indices -/

namespace Decimal

variable {s : String} {n : Nat} {ds es : List Nat}

/-- Digits, highest first, without a leading zero. -/
structure Plain (ds : List Nat) : Prop where
  ne_nil : ds ≠ []
  lt_ten : ∀ d ∈ ds, d < 10
  leading : ds.head? = some 0 → ds = [0]

/-- The text is the decimal form of the number. -/
def Spells (s : String) (n : Nat) : Prop :=
  ∃ ds, s.toList = ds.map Nat.digitChar ∧ Plain ds ∧ Nat.ofDigits 10 ds.reverse = n

/-- Digits without a leading zero are those of their value. -/
theorem Plain.reverse_eq (h : Plain ds) (hzero : ds ≠ [0]) :
    Nat.digits 10 (Nat.ofDigits 10 ds.reverse) = ds.reverse := by
  refine Nat.digits_ofDigits 10 (by decide) _ (fun d hd => h.lt_ten d (List.mem_reverse.mp hd)) ?_
  intro hne hlast
  rw [List.getLast_reverse] at hlast
  refine hzero (h.leading ?_)
  rw [← hlast]
  exact List.head?_eq_some_head _

theorem Plain.eq_of_ofDigits (hd : Plain ds) (he : Plain es)
    (h : Nat.ofDigits 10 ds.reverse = Nat.ofDigits 10 es.reverse) : ds = es := by
  -- Zero alone is written with a digit that its value does not tell.
  have hnone : ∀ {fs : List Nat}, Plain fs → fs ≠ [0] → Nat.ofDigits 10 fs.reverse ≠ 0 := by
    intro fs hf hzero hvalue
    have hdigits := hf.reverse_eq hzero
    rw [hvalue, Nat.digits_zero] at hdigits
    exact hf.ne_nil (List.reverse_eq_nil_iff.mp hdigits.symm)
  by_cases hd0 : ds = [0] <;> by_cases he0 : es = [0]
  · rw [hd0, he0]
  · subst hd0
    exact absurd h.symm (hnone he he0)
  · subst he0
    exact absurd h (hnone hd hd0)
  · have hdigits := hd.reverse_eq hd0
    rw [h, he.reverse_eq he0] at hdigits
    exact (List.reverse_injective hdigits).symm

theorem spells_ofNat (n : Nat) : Spells (ofNat n) n := by
  obtain ⟨ds, htext, hne, hdigits, hvalue⟩ := ofDigits?_eq_some_iff.mp (ofDigits?_digits n)
  refine ⟨ds, String.toList_ofList.trans htext, ⟨hne, hdigits, fun hzero => ?_⟩, hvalue⟩
  obtain ⟨rest, rfl⟩ := List.head?_eq_some_iff.mp hzero
  rcases Nat.eq_zero_or_pos n with rfl | hn
  · obtain rfl := List.map_eq_nil_iff.mp (List.tail_eq_of_cons_eq htext).symm
    rfl
  · have hhead := Nat.head?_toDigits_ne (b := 10) (by decide) hn
    exact absurd (congrArg List.head? htext) hhead

/-- The decimal form of a number is the only one. -/
theorem spells_iff : Spells s n ↔ s = ofNat n := by
  constructor
  · rintro ⟨ds, htext, hplain, hvalue⟩
    obtain ⟨es, hform, hplain', hvalue'⟩ := spells_ofNat n
    obtain rfl := hplain.eq_of_ofDigits hplain' (hvalue.trans hvalue'.symm)
    exact String.toList_inj.mp (htext.trans hform.symm)
  · rintro rfl
    exact spells_ofNat n

end Decimal

namespace PropertyName

open Script

/-- A name is sorted by its form alone. -/
theorem ofKey_name_eq (name : String) :
    ofKey (.name name) = .ok (((arrayIndex? name).map index).getD (.name name)) := by
  unfold Script.Key.name ofKey
  dsimp only
  cases arrayIndex? name <;> rfl

/-- The way that array indices take cannot be told from that of every other name. A name is sorted as
an index if it is the decimal form of one, and keeps its text; for every type of keys it then denotes the
key, or is refused for the fault, that it would be without being sorted. -/
theorem index_invisible (name : String) :
    (∀ i, arrayIndex? name = some i ↔ Decimal.Spells name i ∧ i ≤ 4294967294) ∧
    ∃ p, ofKey (.name name) = .ok p ∧ p.render = name ∧
      (∀ i, p = .index i ↔ arrayIndex? name = some i) ∧
      (p = .name name ↔ arrayIndex? name = none) ∧
      (∀ τ : AtomType, p.toAtom τ = τ.keyOfName name) ∧
      ∀ (m : Machine) (r : Receiver), tableAtom m r p = tableAtom m r (.name name) := by
  have hindex : ∀ i, arrayIndex? name = some i ↔ Decimal.Spells name i ∧ i ≤ 4294967294 := by
    intro i
    rw [arrayIndex?_eq_some, Decimal.spells_iff]
    exact and_congr_right fun _ => Nat.lt_succ_iff
  refine ⟨hindex, ?_⟩
  have hp := ofKey_name_eq name
  have hatom : ∀ τ : AtomType, _ = τ.keyOfName name := fun τ => toAtom_of_ofKey hp
  refine ⟨_, hp, render_of_ofKey hp, ?_, ?_, hatom, fun m r => ?_⟩
  · intro i
    cases arrayIndex? name with
    | some k => rw [Option.map_some, Option.getD_some, index.injEq, Option.some.injEq]
    | none => exact iff_of_false nofun nofun
  · cases arrayIndex? name with
    | some k => exact iff_of_false nofun nofun
    | none => exact iff_of_true rfl rfl
  · unfold tableAtom
    cases m.heap.typeOf r.value with
    | table key _ => exact hatom key
    | _ => rfl

end PropertyName

end HostView
