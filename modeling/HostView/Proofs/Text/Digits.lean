import HostView.Text.Decimal
import HostView.Text.Hexadecimal

/-! # Digits read back

The digits of a number are read back as the number, in decimal and in hexadecimal, and the first of
them is zero only if the number is.
-/

namespace Nat

variable {b n : Nat} {c : Char}

/-- Every digit of a number is the character of a value below the base. -/
theorem exists_of_mem_toDigits (hb : 1 < b) (hc : c ∈ Nat.toDigits b n) :
    ∃ d < b, c = d.digitChar := by
  induction n using Nat.strongRecOn with
  | ind n ih =>
      rw [Nat.toDigits_eq_if hb] at hc
      split at hc
      next hn =>
        rw [List.mem_singleton] at hc
        exact ⟨n, hn, hc⟩
      next hn =>
        rcases List.mem_append.mp hc with hinit | hlast
        · exact ih (n / b) (Nat.div_lt_self (by omega) hb) hinit
        · rw [List.mem_singleton] at hlast
          exact ⟨n % b, Nat.mod_lt n (by omega), hlast⟩

/-- The digits of a number do not begin with a zero, unless the number is zero. -/
theorem head?_toDigits_ne (hb : 1 < b) (hn : 0 < n) : (Nat.toDigits b n).head? ≠ some '0' := by
  induction n using Nat.strongRecOn with
  | ind n ih =>
      rw [Nat.toDigits_eq_if hb]
      split
      next =>
        intro hzero
        rw [List.head?_cons, Option.some.injEq, Nat.digitChar_eq_zero] at hzero
        omega
      next hle =>
        have hinit := ih (n / b) (Nat.div_lt_self hn hb) (Nat.div_pos (by omega) (by omega))
        rw [List.head?_append]
        cases hhead : (Nat.toDigits b (n / b)).head? with
        | none => exact absurd (List.head?_eq_none_iff.mp hhead) Nat.toDigits_ne_nil
        | some c => rwa [hhead] at hinit

end Nat

namespace HostView

namespace Decimal

variable {n d value : Nat}

theorem digit?_digitChar (hd : d < 10) : digit? d.digitChar = some d := by
  have hall : ∀ d < 10, digit? (Nat.digitChar d) = some d := by decide
  exact hall d hd

/-- Digits of a number after those of another are read as digits of both. -/
theorem continueFrom_digits (n value : Nat) :
    continueFrom value (digits n) = some (10 ^ (digits n).length * value + n) := by
  suffices happend : ∀ rest, continueFrom value (digits n ++ rest) =
      continueFrom (10 ^ (digits n).length * value + n) rest by
    rw [← List.append_nil (digits n), happend, List.append_nil, continueFrom]
  induction n using Nat.strongRecOn generalizing value with
  | ind n ih =>
      intro rest
      rw [digits, Nat.toDigits_eq_if (by omega)]
      split
      next hn =>
        simp only [List.cons_append, List.nil_append, continueFrom, digit?_digitChar hn,
          List.length_singleton, Nat.pow_one]
      next hn =>
        have hlast : digit? (n % 10).digitChar = some (n % 10) :=
          digit?_digitChar (Nat.mod_lt n (by omega))
        have hvalue : 10 * (10 ^ (digits (n / 10)).length * value + n / 10) + n % 10 =
            10 ^ ((digits (n / 10)).length + 1) * value + n := by
          rw [Nat.pow_succ, Nat.mul_comm _ 10, Nat.mul_assoc]
          omega
        rw [List.append_assoc, ← digits, ih (n / 10) (by omega), List.singleton_append,
          continueFrom, hlast]
        simp only [hvalue, List.length_append, List.length_singleton]

/-- A number is read back from its digits. -/
theorem ofDigits?_digits (n : Nat) : ofDigits? (digits n) = some n := by
  have hread := continueFrom_digits n 0
  rw [Nat.mul_zero, Nat.zero_add] at hread
  cases hdigits : digits n with
  | nil => exact absurd hdigits Nat.toDigits_ne_nil
  | cons c rest => rw [ofDigits?, ← hdigits, hread]

theorem unsigned?_digits (n : Nat) : unsigned? (digits n) = some n := by
  unfold unsigned?
  split
  next rest hdigits =>
    have hplus : '+' ∈ Nat.toDigits 10 n := by
      rw [← digits, hdigits]
      exact List.mem_cons_self
    obtain ⟨d, -, hd⟩ := Nat.exists_of_mem_toDigits (by omega) hplus
    simp at hd
  next => exact ofDigits?_digits n

/-- A number within the bound is read back from its literal. -/
theorem natural?_ofNat {limit : Nat} (hn : n ≤ limit) : natural? limit (ofNat n) = some n := by
  rw [natural?, ofNat, String.toList_ofList, unsigned?_digits]
  exact if_pos hn

end Decimal

namespace Hexadecimal

theorem digit?_digitChar {d : Nat} (hd : d < 16) : digit? d.digitChar = some d := by
  have hall : ∀ d < 16, digit? (Nat.digitChar d) = some d := by decide
  exact hall d hd

end Hexadecimal

end HostView
