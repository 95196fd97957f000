import HostView.Proofs.Net.Subnets

/-! # Members of subnets

The members of a subnet are the addresses of its family that begin with the same bits as the address
that it was made of. The longer of two subnets that share a member begins as the shorter one does, so
that all its members are members of the other. Main statement: `members_begin_alike`.
-/

namespace HostView

variable {a b c : Address} {k n : Nat} {s t : Subnet}

/-! ### Beginning alike -/

namespace Address

/-- Addresses of one family that have the same first bits. -/
structure BeginsAs (n : Nat) (a b : Address) : Prop where
  family : a.sameFamily b = true
  bits : ∀ i < n, a.bit i = b.bit i

theorem sameFamily_comm (a b : Address) : a.sameFamily b = b.sameFamily a := by
  cases a <;> cases b <;> rfl

theorem sameFamily_trans (h : a.sameFamily b = true) (h' : b.sameFamily c = true) :
    a.sameFamily c = true := by
  cases a <;> cases b <;> cases c <;> simp_all [sameFamily]

/-- There are no bits after the last one. -/
theorem bit_of_width_le {i : Nat} (h : a.width ≤ i) : a.bit i = false := by
  cases a with
  | v4 bits | v6 bits => exact BitVec.getMsbD_of_ge bits i h

namespace BeginsAs

theorem refl (n : Nat) (a : Address) : a.BeginsAs n a := ⟨a.sameFamily_refl, fun _ _ => rfl⟩

theorem symm (h : a.BeginsAs n b) : b.BeginsAs n a :=
  ⟨(sameFamily_comm b a).trans h.family, fun i hi => (h.bits i hi).symm⟩

theorem trans (h : a.BeginsAs n b) (h' : b.BeginsAs n c) : a.BeginsAs n c :=
  ⟨sameFamily_trans h.family h'.family, fun i hi => (h.bits i hi).trans (h'.bits i hi)⟩

theorem mono (h : a.BeginsAs n b) (hk : k ≤ n) : a.BeginsAs k b :=
  ⟨h.family, fun i hi => h.bits i (Nat.lt_of_lt_of_le hi hk)⟩

end BeginsAs

theorem beginsAs_zero_iff : a.BeginsAs 0 b ↔ a.sameFamily b = true :=
  ⟨BeginsAs.family, fun h => ⟨h, fun _ hi => absurd hi (Nat.not_lt_zero _)⟩⟩

/-- Only an address itself has all its bits. -/
theorem beginsAs_width_iff : a.BeginsAs a.width b ↔ b = a := by
  constructor
  · intro h
    refine (ext_bit h.family fun i => ?_).symm
    rcases Nat.lt_or_ge i a.width with hi | hi
    · exact h.bits i hi
    · rw [bit_of_width_le hi, bit_of_width_le (width_eq_of_sameFamily h.family ▸ hi)]
  · rintro rfl
    exact .refl _ _

end Address

/-! ### Members -/

namespace Subnet

theorem make_eq_ok_iff : make a n = .ok s ↔ n ≤ a.width ∧ s = ⟨mask a n, n⟩ := by
  rcases Nat.lt_or_ge a.width n with hlt | hle
  · rw [make, if_pos hlt]
    refine iff_of_false ?_ fun h => absurd h.1 (Nat.not_le.mpr hlt)
    rintro ⟨⟩
  · rw [make, if_neg (Nat.not_lt.mpr hle), Except.ok.injEq]
    exact ⟨fun h => ⟨hle, h.symm⟩, fun h => h.2.symm⟩

/-- Masks of addresses are equal if the addresses begin alike. -/
theorem mask_eq_mask (h : a.BeginsAs n b) (hn : n ≤ a.width) : mask a n = mask b n := by
  have hfamily : (mask a n).sameFamily (mask b n) = true := by
    rw [sameFamily_mask, Address.sameFamily_comm, sameFamily_mask, Address.sameFamily_comm]
    exact h.family
  refine Address.ext_bit hfamily fun i => ?_
  rw [bit_mask hn, bit_mask (Address.width_eq_of_sameFamily h.family ▸ hn)]
  by_cases hi : i < n
  · rw [h.bits i hi]
  · rw [decide_eq_false hi, Bool.false_and, Bool.false_and]

/-- The members of a subnet begin as the address that it was made of. -/
theorem contains_iff_beginsAs (h : make a n = .ok s) : s.contains b = true ↔ a.BeginsAs n b := by
  obtain ⟨hn, hs⟩ := make_eq_ok_iff.mp h
  rw [(canonical_of_make h).contains_iff, hs]
  have hfamily : b.sameFamily (mask a n) = a.sameFamily b := by
    rw [Address.sameFamily_comm, sameFamily_mask]
  have hbits : ∀ i < n, (mask a n).bit i = a.bit i := by
    intro i hi
    rw [bit_mask hn, decide_eq_true hi, Bool.true_and]
  constructor
  · rintro ⟨hb, hagree⟩
    exact ⟨hfamily ▸ hb, fun i hi => (hbits i hi).symm.trans (hagree i hi).symm⟩
  · rintro ⟨ha, hagree⟩
    exact ⟨hfamily.trans ha, fun i hi => (hagree i hi).symm.trans (hbits i hi).symm⟩

/-- The longer of two subnets that share a member is part of the shorter one. -/
theorem contains_of_shared {x y : Address} (hs : make a n = .ok s) (ht : make b k = .ok t)
    (hle : n ≤ k) (hxs : s.contains x = true) (hxt : t.contains x = true)
    (hy : t.contains y = true) : s.contains y = true := by
  rw [contains_iff_beginsAs hs] at hxs ⊢
  rw [contains_iff_beginsAs ht] at hxt hy
  have hxy : x.BeginsAs n y := (hxt.symm.trans hy).mono hle
  exact hxs.trans hxy

/-- Of two subnets one is part of the other, or they share no member. -/
theorem nested_or_disjoint (hs : make a n = .ok s) (ht : make b k = .ok t) :
    (∀ x, t.contains x = true → s.contains x = true) ∨
    (∀ x, s.contains x = true → t.contains x = true) ∨
    ∀ x, ¬(s.contains x = true ∧ t.contains x = true) := by
  by_cases hshare : ∃ x, s.contains x = true ∧ t.contains x = true
  · obtain ⟨x, hxs, hxt⟩ := hshare
    rcases Nat.le_total n k with hle | hle
    · exact .inl fun y => contains_of_shared hs ht hle hxs hxt
    · exact .inr (.inl fun y => contains_of_shared ht hs hle hxt hxs)
  · exact .inr (.inr fun x hx => hshare ⟨x, hx⟩)

/-- Two addresses make one subnet of a length if each is a member of the other's. -/
theorem eq_iff_contains (hs : make a n = .ok s) (ht : make b n = .ok t) :
    s = t ↔ s.contains b = true ∧ t.contains a = true := by
  constructor
  · rintro rfl
    exact ⟨(contains_iff_beginsAs ht).mpr (.refl n b), (contains_iff_beginsAs hs).mpr (.refl n a)⟩
  · rintro ⟨hb, -⟩
    obtain ⟨hn, rfl⟩ := make_eq_ok_iff.mp hs
    obtain ⟨-, rfl⟩ := make_eq_ok_iff.mp ht
    rw [mask_eq_mask ((contains_iff_beginsAs hs).mp hb) hn]

/-- A length that the family allows makes a subnet, whose members are the addresses of the family that
begin with the same bits: all of them if the length is zero, and only the address itself if it is full. A
larger length is refused. Of any two subnets one is part of the other or they share no member, and two
addresses make one subnet of a length just if each is a member of the other's. -/
theorem members_begin_alike (a : Address) (n : Nat) :
    (n ≤ a.width → ∃ s, make a n = .ok s ∧ ∀ b, s.contains b = true ↔
      b.sameFamily a = true ∧ ∀ i < n, b.bit i = a.bit i) ∧
    (∃ s, make a 0 = .ok s ∧ ∀ b, s.contains b = true ↔ b.sameFamily a = true) ∧
    (∃ s, make a a.width = .ok s ∧ ∀ b, s.contains b = true ↔ b = a) ∧
    (a.width < n → make a n = .error (.tooLong n a.width)) ∧
    (∀ s b k t, make a n = .ok s → make b k = .ok t →
      (∀ x, t.contains x = true → s.contains x = true) ∨
      (∀ x, s.contains x = true → t.contains x = true) ∨
      ∀ x, ¬(s.contains x = true ∧ t.contains x = true)) ∧
    (∀ b, n ≤ a.width → n ≤ b.width → ∃ s t, make a n = .ok s ∧ make b n = .ok t ∧
      (s = t ↔ s.contains b = true ∧ t.contains a = true)) := by
  have hmake : ∀ {a n}, n ≤ Address.width a → make a n = .ok ⟨mask a n, n⟩ :=
    fun h => make_eq_ok_iff.mpr ⟨h, rfl⟩
  refine ⟨fun hn => ⟨_, hmake hn, fun b => ?_⟩, ⟨_, hmake (Nat.zero_le _), fun b => ?_⟩,
    ⟨_, hmake (Nat.le_refl _), fun b => ?_⟩, fun hn => if_pos hn, fun s b k t => nested_or_disjoint,
    fun b ha hb => ⟨_, _, hmake ha, hmake hb, eq_iff_contains (hmake ha) (hmake hb)⟩⟩
  · rw [contains_iff_beginsAs (hmake hn)]
    exact ⟨fun h => ⟨h.symm.family, h.symm.bits⟩, fun h => Address.BeginsAs.symm ⟨h.1, h.2⟩⟩
  · rw [contains_iff_beginsAs (hmake (Nat.zero_le _)), Address.beginsAs_zero_iff,
      Address.sameFamily_comm]
  · rw [contains_iff_beginsAs (hmake (Nat.le_refl _)), Address.beginsAs_width_iff]

/-- A network of sixteen bits within one of eight. -/
theorem members_begin_alike_networks :
    let a : Address := .v4 0x0A010203#32
    let b : Address := .v4 0x0A010000#32
    let s : Subnet := ⟨.v4 0x0A000000#32, 8⟩
    let t : Subnet := ⟨.v4 0x0A010000#32, 16⟩
    8 ≤ a.width ∧ 8 ≤ b.width ∧ a.width < 33 ∧ make a 8 = .ok s ∧ make b 16 = .ok t ∧
      (∃ s', make a 8 = .ok s' ∧ ∀ c, s'.contains c = true ↔
        c.sameFamily a = true ∧ ∀ i < 8, c.bit i = a.bit i) ∧
      make a 33 = .error (.tooLong 33 32) ∧
      ((∀ x, t.contains x = true → s.contains x = true) ∨
        (∀ x, s.contains x = true → t.contains x = true) ∨
        ∀ x, ¬(s.contains x = true ∧ t.contains x = true)) ∧
      ∃ s' t', make a 8 = .ok s' ∧ make b 8 = .ok t' ∧
        (s' = t' ↔ s'.contains b = true ∧ t'.contains a = true) := by
  intro a b s t
  have hs : make a 8 = .ok s := rfl
  have ht : make b 16 = .ok t := rfl
  obtain ⟨hmembers, -, -, -, hnested, hsame⟩ := members_begin_alike a 8
  exact ⟨by decide, by decide, by decide, hs, ht, hmembers (by decide),
    (members_begin_alike a 33).2.2.2.1 (by decide), hnested s b 16 t hs ht, hsame b (by decide) (by decide)⟩

end Subnet

end HostView
