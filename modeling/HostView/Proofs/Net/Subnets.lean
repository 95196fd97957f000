import HostView.Net.Document
import HostView.Proofs.Net.Literals

/-! # Subnets with the bits of their hosts cleared

A subnet is canonical if it is no longer than the addresses of its family and no bit is set after
its length. That is what `make` establishes, and with it `parse`: a canonical subnet is made again
from its own parts, contains its network, and is read back from its literal. A document is read as
it stands, so that it may store any subnet whose length fits into a byte. Main statement:
`produced_lawful`.
-/

namespace HostView

variable {a : Address} {n : Nat} {s : Subnet}

/-! ### Bits of addresses -/

namespace Address

/-- A bit of an address, counted from the highest. -/
def bit : Address → Nat → Bool
  | .v4 bits, i => bits.getMsbD i
  | .v6 bits, i => bits.getMsbD i

theorem ext_bit {a b : Address} (hfamily : a.sameFamily b) (hbits : ∀ i, a.bit i = b.bit i) :
    a = b := by
  cases a with
  | v4 x =>
      cases b with
      | v4 y => exact congrArg v4 (BitVec.eq_of_getMsbD_eq fun i _ => hbits i)
      | v6 y => cases hfamily
  | v6 x =>
      cases b with
      | v4 y => cases hfamily
      | v6 y => exact congrArg v6 (BitVec.eq_of_getMsbD_eq fun i _ => hbits i)

/-- Addresses of one family have the same width. -/
theorem width_eq_of_sameFamily {a b : Address} (h : a.sameFamily b) : a.width = b.width := by
  cases a with
  | v4 => cases b with
    | v4 => rfl
    | v6 => cases h
  | v6 => cases b with
    | v4 => cases h
    | v6 => rfl

@[simp]
theorem sameFamily_refl (a : Address) : a.sameFamily a := by
  cases a <;> rfl

end Address

namespace Subnet

theorem hostBits?_eq_some {width : Nat} (h : n ≤ width) : hostBits? width n = some (width - n) :=
  if_pos h

/-- The bits up to the length are kept, and no others. -/
theorem getMsbD_keep {width : Nat} (bits : BitVec width) (h : n ≤ width) (i : Nat) :
    (keep bits n).getMsbD i = (decide (i < n) && bits.getMsbD i) := by
  have hshift : (BitVec.allOnes width <<< (width - n)).getMsbD i = decide (i < n) := by
    rw [BitVec.getMsbD_shiftLeft, BitVec.getMsbD_allOnes]
    exact decide_eq_decide.mpr (by omega)
  rw [keep, hostBits?_eq_some h, BitVec.getMsbD_and, hshift, Bool.and_comm]

theorem bit_mask (h : n ≤ a.width) (i : Nat) : (mask a n).bit i = (decide (i < n) && a.bit i) := by
  cases a with
  | v4 bits => exact getMsbD_keep bits h i
  | v6 bits => exact getMsbD_keep bits h i

@[simp]
theorem width_mask (a : Address) (n : Nat) : (mask a n).width = a.width := by
  cases a <;> rfl

/-- Masking keeps the family. -/
theorem sameFamily_mask (a b : Address) (n : Nat) :
    (mask a n).sameFamily b = a.sameFamily b := by
  cases a <;> cases b <;> rfl

/-! ### Canonical subnets -/

/-- The length is at most the width of the family, and the bits of the host are zero. -/
structure Canonical (s : Subnet) : Prop where
  bounded : s.length ≤ s.network.width
  clear : ∀ i, s.length ≤ i → s.network.bit i = false

/-- Masking a network that is canonical changes nothing. -/
theorem Canonical.mask_eq (h : s.Canonical) : mask s.network s.length = s.network := by
  refine Address.ext_bit (by simp [sameFamily_mask]) fun i => ?_
  rw [bit_mask h.bounded]
  by_cases hi : i < s.length
  · rw [decide_eq_true hi, Bool.true_and]
  · rw [h.clear i (Nat.le_of_not_lt hi), Bool.and_false]

theorem Canonical.make_eq (h : s.Canonical) : make s.network s.length = .ok s := by
  rw [make, if_neg (Nat.not_lt.mpr h.bounded), h.mask_eq]

/-- What is made is canonical, whatever the address. -/
theorem canonical_of_make (h : make a n = .ok s) : s.Canonical := by
  unfold make at h
  split at h
  · cases h
  next hle =>
    have hn : n ≤ a.width := Nat.le_of_not_lt hle
    cases h
    refine ⟨?_, fun i hi => ?_⟩
    · rw [width_mask]
      exact hn
    · simp only [bit_mask hn, decide_eq_false (Nat.not_lt.mpr hi), Bool.false_and]

theorem canonical_iff_made : s.Canonical ↔ s.Made :=
  ⟨fun h => ⟨_, _, h.make_eq⟩, fun ⟨_, _, h⟩ => canonical_of_make h⟩

/-- A literal is read through `make`. -/
theorem canonical_of_parse {text : String} (h : parse text = .ok s) : s.Canonical := by
  unfold parse at h
  split at h
  · cases h
  · split at h
    · cases h
    · split at h
      · cases h
      · exact canonical_of_make h

/-- A canonical subnet contains the addresses of its family that have the leading bits of its
network. -/
theorem Canonical.contains_iff (h : s.Canonical) :
    s.contains a = true ↔
      a.sameFamily s.network ∧ ∀ i < s.length, a.bit i = s.network.bit i := by
  rw [contains, Bool.and_eq_true, decide_eq_true_iff]
  refine and_congr_right fun hfamily => ?_
  have hn : s.length ≤ a.width := Address.width_eq_of_sameFamily hfamily ▸ h.bounded
  refine ⟨fun hmask i hi => ?_, fun hbits => Address.ext_bit ?_ fun i => ?_⟩
  · rw [← hmask, bit_mask hn, decide_eq_true hi, Bool.true_and]
  · rw [sameFamily_mask]
    exact hfamily
  · rw [bit_mask hn]
    by_cases hi : i < s.length
    · rw [decide_eq_true hi, Bool.true_and, hbits i hi]
    · rw [decide_eq_false hi, Bool.false_and, h.clear i (Nat.le_of_not_lt hi)]

/-! ### What is promised of subnets -/

/-- What the users of a subnet rely on. -/
structure Lawful (s : Subnet) : Prop where
  canonical : s.Canonical
  remade : make s.network s.length = .ok s
  own : s.contains s.network = true
  read : parse s.render = .ok s
  /-- Wherever an address is masked to be compared, the shift exists. -/
  shift : ∀ a : Address, a.sameFamily s.network → ∃ count, hostBits? a.width s.length = some count

theorem Canonical.lawful (h : s.Canonical) : s.Lawful where
  canonical := h
  remade := h.make_eq
  own := h.contains_iff.mpr ⟨s.network.sameFamily_refl, fun _ _ => rfl⟩
  read := (canonical_iff_made.mp h).parse_render
  shift _ hfamily := ⟨_, hostBits?_eq_some (Address.width_eq_of_sameFamily hfamily ▸ h.bounded)⟩

/-- A length that fits makes a subnet, to which the address belongs. -/
theorem make_contains (h : n ≤ a.width) :
    make a n = .ok ⟨mask a n, n⟩ ∧ contains ⟨mask a n, n⟩ a = true := by
  have hmake : make a n = .ok ⟨mask a n, n⟩ := if_neg (Nat.not_lt.mpr h)
  refine ⟨hmake, (canonical_of_make hmake).contains_iff.mpr ⟨?_, fun i hi => ?_⟩⟩
  · cases a <;> rfl
  · rw [bit_mask h, decide_eq_true hi, Bool.true_and]

/-- Whatever the network, a subnet is read from its own document if its length fits into a byte. -/
theorem ofJson?_toJson (h : s.length ≤ 255) : ofJson? s.toJson = some s := by
  have hfields : s.toJson.fields? ["network", "prefix"] =
      some [some (.string s.network.render), some (.number (.natural s.length))] := by
    simp [toJson, Json.ofFields, Json.fields?, Json.namesAreText, Json.single?]
  have hlength : (Json.number (.natural s.length)).naturalUpTo? 255 = some s.length := by
    simp [Json.naturalUpTo?, Json.natural?, Option.filter, h]
  simp [ofJson?, hfields, Json.text?, hlength, Address.parse?_render]

/-- A subnet that is made or read from a literal is lawful, and every address is in a subnet of each
length that it allows. A document is read as it stands, whatever bits its network has: what it
stores is lawful just if it is canonical. -/
theorem produced_lawful (s : Subnet) :
    (∀ address n, make address n = .ok s → s.Lawful) ∧
    (∀ address n, n ≤ Address.width address →
      ∃ t, make address n = .ok t ∧ t.length = n ∧ t.contains address = true) ∧
    (∀ text, parse text = .ok s → s.Lawful) ∧
    (∀ j, ofJson? j = some s → (s.Lawful ↔ s.Canonical)) ∧
    (s.length ≤ 255 → ofJson? s.toJson = some s) := by
  refine ⟨fun a n h => (canonical_of_make h).lawful, fun a n h => ?_,
    fun text h => (canonical_of_parse h).lawful, fun j _ => ?_, ofJson?_toJson⟩
  · exact ⟨_, (make_contains h).1, rfl, (make_contains h).2⟩
  · exact ⟨Lawful.canonical, Canonical.lawful⟩

/-- A document with a network that has no host bits is read as a lawful subnet, and so is the
literal of the same subnet. -/
theorem produced_lawful_network :
    let s : Subnet := ⟨.v4 0x0A000000#32, 8⟩
    ofJson? s.toJson = some s ∧ s.Canonical ∧ s.Lawful ∧ parse "10.1.2.3/8" = .ok s := by
  intro s
  have hparse : parse "10.1.2.3/8" = .ok s := rfl
  have hlawful : s.Lawful := (produced_lawful s).2.2.1 _ hparse
  have hread : ofJson? s.toJson = some s := (produced_lawful s).2.2.2.2 (by decide)
  exact ⟨hread, ((produced_lawful s).2.2.2.1 _ hread).mp hlawful, hlawful, hparse⟩

/-- Not everything that a document stores is lawful: the network may have host bits, and then the
subnet does not contain it and is read back as another; the length may be larger than the width,
and then the shift does not exist. -/
theorem stored_not_lawful :
    let s : Subnet := ⟨.v4 0x0A000005#32, 8⟩
    let t : Subnet := ⟨.v4 0x0A000000#32, 200⟩
    (ofJson? s.toJson = some s ∧ ¬ s.Canonical ∧ s.contains s.network = false ∧
      make s.network s.length = .ok ⟨.v4 0x0A000000#32, 8⟩ ∧
      parse s.render = .ok ⟨.v4 0x0A000000#32, 8⟩) ∧
    ofJson? t.toJson = some t ∧ ¬ t.Canonical ∧
      parse t.render = .error (.tooLong 200 32) ∧ hostBits? t.network.width t.length = none := by
  intro s t
  have hs : make (.v4 0x0A000005#32) 8 = .ok ⟨.v4 0x0A000000#32, 8⟩ := rfl
  have ht : make (.v4 0x0A000000#32) 200 = .error (.tooLong 200 32) := rfl
  refine ⟨⟨ofJson?_toJson (by decide), fun h => ?_, by decide, hs, ?_⟩,
    ofJson?_toJson (by decide), fun h => ?_, ?_, by decide⟩
  · exact absurd (h.clear 31 (by decide)) (by decide)
  · exact (parse_render_eq (by decide)).trans hs
  · exact absurd h.bounded (by decide)
  · exact (parse_render_eq (by decide)).trans ht

end Subnet

end HostView
