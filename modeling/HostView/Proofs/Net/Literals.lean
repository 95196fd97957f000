import HostView.Net.Port
import HostView.Net.Subnet
import HostView.Proofs.Net.Address

/-! # Ports and subnets read back

The literals of ports and subnets are split at their slash and read back part by part. A subnet is
read back if it was built with its length checked and the bits of its hosts cleared.
-/

namespace HostView

/-- A text is split at the slash that is put into it. -/
theorem splitSlash?_append {s : String} (hs : '/' ∉ s.toList) (t : String) :
    splitSlash? (s ++ "/" ++ t) = some (s, t) := by
  have htext : (s ++ "/" ++ t).toList = s.toList ++ '/' :: t.toList := by simp
  have hpasses : ∀ c ∈ s.toList, decide (c ≠ '/') = true := by
    intro c hc
    rw [decide_eq_true_iff]
    rintro rfl
    exact hs hc
  rw [splitSlash?, htext, List.dropWhile_append_of_pos hpasses,
    List.takeWhile_append_of_pos hpasses]
  simp

theorem Decimal.slash_notMem_ofNat (n : Nat) : '/' ∉ (Decimal.ofNat n).toList := by
  intro hc
  rw [Decimal.ofNat, String.toList_ofList] at hc
  obtain ⟨d, -, hd⟩ := Nat.exists_of_mem_toDigits (by omega) hc
  simp at hd

theorem Protocol.parse_render (p : Protocol) : Protocol.parse p.render = .ok p := by
  cases p <;> rfl

/-- Every port is read back from its literal. -/
theorem Port.parse_render (p : Port) : Port.parse p.render = .ok p := by
  have hnumber : Decimal.natural? 65535 (Decimal.ofNat p.number.toNat) = some p.number.toNat :=
    Decimal.natural?_ofNat (Nat.le_of_lt_succ p.number.toNat_lt)
  simp only [Port.parse, Port.render, splitSlash?_append (Decimal.slash_notMem_ofNat _), hnumber,
    Protocol.parse_render, Except.map, UInt16.ofNat_toNat]

namespace Subnet

/-- The subnet was built by `make`. -/
def Made (s : Subnet) : Prop := ∃ address length, make address length = .ok s

/-- Clearing the bits of the host once is enough. -/
theorem keep_keep {width : Nat} (bits : BitVec width) (length : Nat) :
    keep (keep bits length) length = keep bits length := by
  unfold keep
  cases hostBits? width length with
  | none => rfl
  | some count => simp only [BitVec.and_assoc, BitVec.and_self]

/-- A subnet that was made is made again from its parts, and its length fits into a byte. -/
theorem Made.make_eq {s : Subnet} (h : s.Made) :
    make s.network s.length = .ok s ∧ s.length ≤ 255 := by
  obtain ⟨address, length, hmake⟩ := h
  unfold make at hmake
  split at hmake
  · cases hmake
  next hle =>
    cases hmake
    cases address with
    | v4 bits =>
        have hlength : length ≤ 32 := Nat.le_of_not_lt hle
        refine ⟨?_, by simp only; omega⟩
        simp only [make, mask, Address.width, keep_keep]
        exact if_neg (by omega)
    | v6 bits =>
        have hlength : length ≤ 128 := Nat.le_of_not_lt hle
        refine ⟨?_, by simp only; omega⟩
        simp only [make, mask, Address.width, keep_keep]
        exact if_neg (by omega)

/-- The literal of a subnet is read as the subnet that its parts make. -/
theorem parse_render_eq {s : Subnet} (h : s.length ≤ 255) :
    parse s.render = make s.network s.length := by
  simp only [parse, render, splitSlash?_append (Address.slash_notMem_render _),
    Address.parse?_render, Decimal.natural?_ofNat h]

/-- A subnet that was made is read back from its literal. -/
theorem Made.parse_render {s : Subnet} (h : s.Made) : parse s.render = .ok s := by
  obtain ⟨hmake, hlength⟩ := h.make_eq
  rw [parse_render_eq hlength, hmake]

end Subnet

end HostView
