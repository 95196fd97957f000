import HostView.Text.Decimal
import Mathlib.Data.Nat.Digits.Defs

/-! # Numerals

What is read as a number: a run of digits, after a plus sign or none, whose value is the number. There
may be any number of leading zeros, and a bound is on the value and not on the length.
-/

namespace HostView.Decimal

variable {c : Char} {cs : List Char} {d n value limit : Nat} {s : String}

/-- The text is a numeral of the number: digits, highest first, after a plus sign or none. -/
def Writes (s : String) (n : Nat) : Prop :=
  ∃ sign ds, (sign = [] ∨ sign = ['+']) ∧ s.toList = sign ++ ds.map Nat.digitChar ∧ ds ≠ [] ∧
    (∀ d ∈ ds, d < 10) ∧ Nat.ofDigits 10 ds.reverse = n

theorem digit?_eq_some_iff : digit? c = some d ↔ d < 10 ∧ c = d.digitChar := by
  unfold digit?
  constructor
  · intro h
    split at h
    next hrange =>
      have hlow : 48 ≤ c.toNat := hrange.1
      have hhigh : c.toNat ≤ 57 := hrange.2
      have hd : c.toNat - 48 = d := Option.some.inj h
      refine ⟨by omega, Char.toNat_inj.mp ?_⟩
      rw [Nat.toNat_digitChar_of_lt_ten (by omega)]
      omega
    next => cases h
  · rintro ⟨hd, rfl⟩
    have hvalue := Nat.toNat_digitChar_of_lt_ten hd
    have hlow : '0' ≤ d.digitChar := by
      show 48 ≤ d.digitChar.toNat
      omega
    have hhigh : d.digitChar ≤ '9' := by
      show d.digitChar.toNat ≤ 57
      omega
    rw [if_pos ⟨hlow, hhigh⟩, hvalue]
    exact congrArg some (Nat.add_sub_cancel_left 48 d)

/-- Only digits are read after digits, each of them on. -/
theorem continueFrom_eq_some_iff : continueFrom value cs = some n ↔
    ∃ ds : List Nat, (∀ d ∈ ds, d < 10) ∧ cs = ds.map Nat.digitChar ∧
      ds.foldl (fun v d => 10 * v + d) value = n := by
  induction cs generalizing value with
  | nil =>
      rw [continueFrom, Option.some.injEq]
      constructor
      · rintro rfl
        exact ⟨[], nofun, rfl, rfl⟩
      · rintro ⟨ds, -, hds, hvalue⟩
        obtain rfl := List.map_eq_nil_iff.mp hds.symm
        exact hvalue
  | cons c cs ih =>
      rw [continueFrom]
      split
      next d hc =>
        obtain ⟨hd, rfl⟩ := digit?_eq_some_iff.mp hc
        rw [ih]
        constructor
        · rintro ⟨ds, hdigits, rfl, hvalue⟩
          exact ⟨d :: ds, List.forall_mem_cons.mpr ⟨hd, hdigits⟩, rfl, hvalue⟩
        · rintro ⟨ds, hdigits, hds, hvalue⟩
          obtain ⟨d', ds, rfl, hhead, rfl⟩ := List.map_eq_cons_iff.mp hds.symm
          obtain ⟨hd', hrest⟩ := List.forall_mem_cons.mp hdigits
          have hsame := digit?_eq_some_iff.mpr ⟨hd', hhead.symm⟩
          obtain rfl : d = d' := Option.some.inj (hc.symm.trans hsame)
          exact ⟨ds, hrest, rfl, hvalue⟩
      next hc =>
        refine iff_of_false nofun ?_
        rintro ⟨ds, hdigits, hds, -⟩
        obtain ⟨d, ds, rfl, rfl, -⟩ := List.map_eq_cons_iff.mp hds.symm
        rw [digit?_eq_some_iff.mpr ⟨(List.forall_mem_cons.mp hdigits).1, rfl⟩] at hc
        cases hc

theorem ofDigits_reverse (ds : List Nat) :
    Nat.ofDigits 10 ds.reverse = ds.foldl (fun v d => 10 * v + d) 0 := by
  rw [Nat.ofDigits_eq_foldr, List.foldr_reverse]
  simp only [Nat.cast_id, Nat.add_comm]

/-- A run of digits without a sign. -/
theorem ofDigits?_eq_some_iff : ofDigits? cs = some n ↔
    ∃ ds : List Nat, cs = ds.map Nat.digitChar ∧ ds ≠ [] ∧ (∀ d ∈ ds, d < 10) ∧
      Nat.ofDigits 10 ds.reverse = n := by
  cases cs with
  | nil =>
      refine iff_of_false nofun ?_
      rintro ⟨ds, hds, hne, -⟩
      exact hne (List.map_eq_nil_iff.mp hds.symm)
  | cons c cs =>
      rw [ofDigits?, continueFrom_eq_some_iff]
      simp only [ofDigits_reverse]
      constructor
      · rintro ⟨ds, hdigits, hds, hvalue⟩
        refine ⟨ds, hds, ?_, hdigits, hvalue⟩
        rintro rfl
        cases hds
      · rintro ⟨ds, hds, -, hdigits, hvalue⟩
        exact ⟨ds, hdigits, hds, hvalue⟩

/-- A plus sign is no digit. -/
theorem plus_ne_map {ds : List Nat} (hne : ds ≠ []) (hdigits : ∀ d ∈ ds, d < 10) :
    ds.map Nat.digitChar ≠ '+' :: cs := by
  intro hds
  obtain ⟨d, ds, rfl, hplus, -⟩ := List.map_eq_cons_iff.mp hds
  have hdigit := digit?_eq_some_iff.mpr ⟨(List.forall_mem_cons.mp hdigits).1, hplus.symm⟩
  cases hdigit

theorem unsigned?_eq_some_iff : unsigned? s.toList = some n ↔ Writes s n := by
  unfold unsigned?
  split
  next rest hplus =>
    rw [ofDigits?_eq_some_iff]
    constructor
    · rintro ⟨ds, rfl, hne, hdigits, hvalue⟩
      exact ⟨['+'], ds, .inr rfl, hplus, hne, hdigits, hvalue⟩
    · rintro ⟨sign, ds, rfl | rfl, htext, hne, hdigits, hvalue⟩
      · exact absurd (htext.symm.trans hplus) (plus_ne_map hne hdigits)
      · exact ⟨ds, List.tail_eq_of_cons_eq (hplus.symm.trans htext), hne, hdigits, hvalue⟩
  next hplus =>
    rw [ofDigits?_eq_some_iff]
    constructor
    · rintro ⟨ds, htext, hne, hdigits, hvalue⟩
      exact ⟨[], ds, .inl rfl, htext, hne, hdigits, hvalue⟩
    · rintro ⟨sign, ds, rfl | rfl, htext, hne, hdigits, hvalue⟩
      · exact ⟨ds, htext, hne, hdigits, hvalue⟩
      · exact absurd htext (hplus _)

/-- What is read as a number within a bound is a numeral of it. -/
theorem natural?_eq_some_iff : natural? limit s = some n ↔ Writes s n ∧ n ≤ limit := by
  rw [← unsigned?_eq_some_iff, natural?]
  cases unsigned? s.toList with
  | none => exact iff_of_false nofun fun h => nomatch h.1
  | some k =>
      simp only [Option.some.injEq]
      split
      next hk =>
        rw [Option.some.injEq]
        exact ⟨fun h => ⟨h, h ▸ hk⟩, And.left⟩
      next hk => exact iff_of_false nofun fun h => hk (h.1 ▸ h.2)

end HostView.Decimal
