import HostView.Number.Binary64

/-! # Doubles that are whole numbers

A whole number below `2 ^ 53` in magnitude is a double, and no other double is that number, except
that there are two zeros.
-/

namespace HostView.Binary64

variable {x : Binary64} {n : Nat} {i : Int}

/-- The magnitude of a double, as an equation without fractions. -/
theorem magnitude?_eq_some_iff :
    x.magnitude? = some n ↔ x.exponentField ≠ 2047 ∧
      x.significand * 2 ^ (max x.exponentField 1 - 1075) =
        n * 2 ^ (1075 - max x.exponentField 1) := by
  unfold magnitude? isFinite
  by_cases hfinite : x.exponentField = 2047
  · rw [hfinite]
    exact ⟨nofun, fun h => absurd rfl h.1⟩
  · rw [if_pos (bne_iff_ne.mpr hfinite)]
    have hscale : x.scale = ((max x.exponentField 1 : Nat) : Int) - 1075 := rfl
    cases hq : x.scale with
    | ofNat k =>
        rw [hq, Int.ofNat_eq_natCast] at hscale
        have hup : max x.exponentField 1 - 1075 = k := by omega
        have hdown : 1075 - max x.exponentField 1 = 0 := by omega
        simp only [hup, hdown, Nat.pow_zero, Nat.mul_one, Option.some.injEq, ne_eq, hfinite,
          not_false_eq_true, true_and]
    | negSucc k =>
        rw [hq] at hscale
        have hup : max x.exponentField 1 - 1075 = 0 := by omega
        have hdown : 1075 - max x.exponentField 1 = k + 1 := by omega
        simp only [hup, hdown, Nat.pow_zero, Nat.mul_one, ne_eq, hfinite, not_false_eq_true,
          true_and]
        constructor
        · intro h
          split at h
          next hrest =>
            cases h
            exact (Nat.div_mul_cancel (Nat.dvd_of_mod_eq_zero hrest)).symm
          next => cases h
        · intro h
          rw [h, Nat.mul_mod_left, if_pos rfl, Nat.mul_div_cancel n (Nat.two_pow_pos (k + 1))]

/-- The word of a positive whole number below `2 ^ 53`, without its sign. -/
def wordOfNat (n : Nat) : Nat := (n.log2 + 1023) * 2 ^ 52 + (n * 2 ^ (52 - n.log2) - 2 ^ 52)

/-- Shifted to the left end, a positive whole number below `2 ^ 53` fills the significand. -/
theorem shifted_bounds (hpos : 0 < n) (hn : n < 2 ^ 53) :
    n.log2 ≤ 52 ∧ 2 ^ 52 ≤ n * 2 ^ (52 - n.log2) ∧ n * 2 ^ (52 - n.log2) < 2 ^ 53 := by
  have hne : n ≠ 0 := by omega
  have hlog : n.log2 < 53 := (Nat.log2_lt hne).mpr hn
  have hlow : 2 ^ n.log2 ≤ n := Nat.log2_self_le hne
  have hhigh : n < 2 ^ (n.log2 + 1) := Nat.lt_log2_self
  have hsum : n.log2 + (52 - n.log2) = 52 := by omega
  have hsucc : n.log2 + 1 + (52 - n.log2) = 53 := by omega
  refine ⟨by omega, ?_, ?_⟩
  · calc 2 ^ 52 = 2 ^ n.log2 * 2 ^ (52 - n.log2) := by rw [← Nat.pow_add, hsum]
      _ ≤ n * 2 ^ (52 - n.log2) := Nat.mul_le_mul_right _ hlow
  · calc n * 2 ^ (52 - n.log2) < 2 ^ (n.log2 + 1) * 2 ^ (52 - n.log2) :=
          Nat.mul_lt_mul_of_pos_right hhigh (Nat.two_pow_pos _)
      _ = 2 ^ 53 := by rw [← Nat.pow_add, hsucc]

theorem wordOfNat_bounds (hpos : 0 < n) (hn : n < 2 ^ 53) :
    2 ^ 52 ≤ wordOfNat n ∧ wordOfNat n < 2 ^ 63 := by
  obtain ⟨hlog, hlow, hhigh⟩ := shifted_bounds hpos hn
  unfold wordOfNat
  omega

theorem bits_ofNat (hpos : 0 < n) (hn : n < 2 ^ 53) : (ofNat n).bits.toNat = wordOfNat n := by
  obtain ⟨hlog, hlow, -⟩ := shifted_bounds hpos hn
  have hlt := (wordOfNat_bounds hpos hn).2
  have hexponent : ((n.log2 : Int) - 52 + 1075).toNat = n.log2 + 1023 := by omega
  have hword : wordOf (n * 2 ^ (52 - n.log2)) ((n.log2 : Int) - 52) = wordOfNat n := by
    unfold wordOf wordOfNat
    rw [if_neg (Nat.not_lt.mpr hlow), if_neg (by omega), hexponent]
  have hbits : ofNat n = ⟨UInt64.ofNat (wordOfNat n)⟩ := by
    rw [ofNat, if_neg (by omega), if_pos hn]
    simp only [hword]
  rw [hbits]
  exact UInt64.toNat_ofNat_of_lt' (Nat.lt_trans hlt (by decide))

/-- A double with the word of a whole number, whatever its sign, is that number. -/
theorem magnitude?_of_word (hpos : 0 < n) (hn : n < 2 ^ 53)
    (hx : x.bits.toNat % 2 ^ 63 = wordOfNat n) : x.magnitude? = some n := by
  obtain ⟨hlog, hlow, hhigh⟩ := shifted_bounds hpos hn
  unfold wordOfNat at hx
  have hexponent : x.exponentField = n.log2 + 1023 := by
    unfold exponentField
    omega
  have hfraction : x.fraction = n * 2 ^ (52 - n.log2) - 2 ^ 52 := by
    unfold fraction
    omega
  have hup : max x.exponentField 1 - 1075 = 0 := by omega
  have hdown : 1075 - max x.exponentField 1 = 52 - n.log2 := by omega
  rw [magnitude?_eq_some_iff, hup, hdown, significand, if_neg (by omega), hfraction]
  omega

/-- A double that is a positive whole number below `2 ^ 53` has its word. -/
theorem word_of_magnitude? (hpos : 0 < n) (hn : n < 2 ^ 53) (hx : x.magnitude? = some n) :
    x.bits.toNat % 2 ^ 63 = wordOfNat n := by
  obtain ⟨hfinite, heq⟩ := magnitude?_eq_some_iff.mp hx
  have hfraction : x.fraction < 2 ^ 52 := Nat.mod_lt _ (by omega)
  by_cases hzero : x.exponentField = 0
  · -- a subnormal double is less than one
    obtain ⟨t, ht, hdown⟩ : ∃ t, 52 ≤ t ∧ 1075 - max x.exponentField 1 = t := ⟨_, by omega, rfl⟩
    have hup : max x.exponentField 1 - 1075 = 0 := by omega
    rw [significand, if_pos hzero, hup, hdown, Nat.pow_zero, Nat.mul_one] at heq
    have hlarge : 2 ^ 52 ≤ n * 2 ^ t :=
      calc 2 ^ 52 ≤ 2 ^ t := Nat.pow_le_pow_right (by omega) ht
        _ ≤ n * 2 ^ t := Nat.le_mul_of_pos_left _ hpos
    omega
  · have hmax : max x.exponentField 1 = x.exponentField := by omega
    rw [significand, if_neg hzero, hmax] at heq
    have hle : x.exponentField ≤ 1075 := by
      refine Nat.le_of_not_lt fun hlarge => ?_
      have hup : 2 ^ 1 ≤ 2 ^ (x.exponentField - 1075) := Nat.pow_le_pow_right (by omega) (by omega)
      have hdown : 1075 - x.exponentField = 0 := by omega
      rw [hdown, Nat.pow_zero, Nat.mul_one] at heq
      have hmul := Nat.mul_le_mul_left (2 ^ 52 + x.fraction) hup
      omega
    -- the significand has 53 bits, so it is shifted down by what the number is short of them
    obtain ⟨t, ht⟩ : ∃ t, x.exponentField + t = 1075 := ⟨_, Nat.add_sub_cancel' hle⟩
    have hup : x.exponentField - 1075 = 0 := by omega
    have hdown : 1075 - x.exponentField = t := by omega
    rw [hup, hdown, Nat.pow_zero, Nat.mul_one] at heq
    have htle : t ≤ 52 := by
      refine Nat.le_of_not_lt fun hlarge => ?_
      have hpow : 2 ^ 53 ≤ 2 ^ t := Nat.pow_le_pow_right (by omega) (by omega)
      have hmul : 2 ^ t ≤ n * 2 ^ t := Nat.le_mul_of_pos_left _ hpos
      omega
    have hlog : n.log2 = 52 - t := by
      have hsum : 52 - t + t = 52 := by omega
      have hsucc : 52 - t + 1 + t = 53 := by omega
      refine (Nat.log2_eq_iff (by omega)).mpr ⟨?_, ?_⟩
      · refine Nat.le_of_mul_le_mul_right ?_ (Nat.two_pow_pos t)
        rw [← Nat.pow_add, hsum]
        omega
      · refine Nat.lt_of_mul_lt_mul_right (a := 2 ^ t) ?_
        rw [← Nat.pow_add, hsucc]
        omega
    have hshift : 52 - n.log2 = t := by omega
    unfold wordOfNat
    rw [hshift, ← heq]
    unfold exponentField at ht
    unfold fraction
    omega

/-! ### Signs -/

theorem toInt?_eq_some_iff :
    x.toInt? = some i ↔ x.magnitude? = some i.natAbs ∧ (0 < i → x.negative = false) ∧
      (i < 0 → x.negative = true) := by
  unfold toInt?
  cases x.magnitude? with
  | none => simp
  | some n =>
      simp only [Option.some.injEq]
      cases x.negative <;> simp <;> omega

theorem bits_neg (hx : x.bits.toNat < 2 ^ 63) : x.neg.bits.toNat = x.bits.toNat + 2 ^ 63 := by
  have hnonnegative : x.negative = false := decide_eq_false (by omega)
  have hsign : (0x8000000000000000 : UInt64).toNat = 2 ^ 63 := rfl
  rw [neg, hnonnegative]
  simp only [Bool.false_eq_true, if_false, UInt64.toNat_add, hsign]
  omega

/-- The word of an integer that is a double. -/
theorem bits_ofInt (hzero : i ≠ 0) (hi : i.natAbs < 2 ^ 53) :
    (ofInt i).bits.toNat = wordOfNat i.natAbs + if i < 0 then 2 ^ 63 else 0 := by
  have hpos : 0 < i.natAbs := Int.natAbs_pos.mpr hzero
  have hbits := bits_ofNat hpos hi
  have hlt := (wordOfNat_bounds hpos hi).2
  cases i with
  | ofNat n =>
      have hnonnegative : ¬ Int.ofNat n < 0 := Int.not_lt.mpr (Int.natCast_nonneg n)
      rw [if_neg hnonnegative, Nat.add_zero]
      exact hbits
  | negSucc n =>
      rw [if_pos (Int.negSucc_lt_zero n), ← hbits]
      exact bits_neg (hbits ▸ hlt)

theorem negative_eq : x.negative = decide (2 ^ 63 ≤ x.bits.toNat) := rfl

/-- An integer below `2 ^ 53` in magnitude is the double that is made of it. -/
theorem toInt?_ofInt (hi : i.natAbs < 2 ^ 53) : (ofInt i).toInt? = some i := by
  by_cases hzero : i = 0
  · rw [hzero, toInt?_eq_some_iff, magnitude?_eq_some_iff]
    have hsignificand : (ofInt 0).significand = 0 := rfl
    refine ⟨⟨by decide, ?_⟩, nofun, nofun⟩
    rw [hsignificand, Int.natAbs_zero, Nat.zero_mul, Nat.zero_mul]
  · have hpos : 0 < i.natAbs := Int.natAbs_pos.mpr hzero
    have hbits := bits_ofInt hzero hi
    obtain ⟨hlow, hhigh⟩ := wordOfNat_bounds hpos hi
    rw [toInt?_eq_some_iff, negative_eq, hbits]
    refine ⟨magnitude?_of_word hpos hi ?_, fun hup => ?_, fun hdown => ?_⟩
    · rw [hbits]
      split <;> omega
    · rw [if_neg (by omega)]
      exact decide_eq_false (by omega)
    · rw [if_pos hdown]
      exact decide_eq_true (by omega)

/-- A double that is a whole number has no other whole part. -/
theorem wholePart_of_magnitude? (hx : x.magnitude? = some n) :
    x.isFinite = true ∧ x.wholePart = n := by
  unfold magnitude? at hx
  unfold wholePart
  split at hx
  next hfinite =>
    refine ⟨hfinite, ?_⟩
    split at hx
    next => exact Option.some.inj hx
    next =>
      split at hx
      next => exact Option.some.inj hx
      next => cases hx
  next => cases hx

theorem isNaN_of_isZero (hx : x.isZero = true) : x.isNaN = false := by
  have hfraction : x.fraction = 0 := by
    simp only [isZero, beq_iff_eq] at hx
    unfold fraction
    omega
  simp [isNaN, hfraction]

/-- A double that is the integer zero is one of the two zeros. -/
theorem isZero_of_magnitude? (hx : x.magnitude? = some 0) : x.isZero := by
  obtain ⟨-, heq⟩ := magnitude?_eq_some_iff.mp hx
  have hpow := Nat.two_pow_pos (max x.exponentField 1 - 1075)
  rw [Nat.zero_mul] at heq
  have hsignificand : x.significand = 0 := (Nat.mul_eq_zero.mp heq).resolve_right (by omega)
  unfold significand at hsignificand
  have hword : x.bits.toNat % 2 ^ 63 = 0 := by
    split at hsignificand
    next hexponent =>
      unfold exponentField at hexponent
      unfold fraction at hsignificand
      omega
    next => omega
  exact beq_iff_eq.mpr hword

/-- A double that is an integer below `2 ^ 53` in magnitude is made of it, or both are zeros. -/
theorem ofInt_of_toInt? (hi : i.natAbs < 2 ^ 53) (hx : x.toInt? = some i) :
    ofInt i = x ∨ (ofInt i).isZero ∧ x.isZero := by
  obtain ⟨hmagnitude, hup, hdown⟩ := toInt?_eq_some_iff.mp hx
  by_cases hzero : i = 0
  · rw [hzero] at hmagnitude ⊢
    exact .inr ⟨rfl, isZero_of_magnitude? hmagnitude⟩
  · left
    have hpos : 0 < i.natAbs := Int.natAbs_pos.mpr hzero
    have hbits := bits_ofInt hzero hi
    have hword := word_of_magnitude? hpos hi hmagnitude
    have hsize := x.bits.toNat_lt
    rw [negative_eq] at hup hdown
    have hsame : (ofInt i).bits.toNat = x.bits.toNat := by
      rw [hbits]
      split
      next hneg =>
        have hsign := of_decide_eq_true (hdown hneg)
        omega
      next =>
        have hsign := of_decide_eq_false (hup (by omega))
        omega
    exact congrArg Binary64.mk (UInt64.toNat_inj.mp hsame)

end HostView.Binary64
