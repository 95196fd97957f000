import HostView.Proofs.Integrity

/-! # Values shown under several masks

The mask belongs to the object that stands for a value, and not to the value. A script that was shown
two values under two masks may store the one in the other and read it back under the other mask. It can
do so where the type of the first is seen through the type of the second, and nowhere else: a field of
a record stays hidden as long as every value hides it that is shown and is the record or has a type
through which the type of the record is seen. A record that no value leads to which is shown stays
hidden as a whole.
-/

namespace HostView

/-- The first type is that of a value which may be seen through one of the second type under a mask:
that of a part, or of a part of what is seen. -/
inductive HostType.SeenIn (mask : Mask) : HostType → HostType → Prop where
  | part {ρ σ τ : HostType} (hpart : σ.ShownPart mask τ) (hsame : ρ.same σ = true) :
      SeenIn mask ρ τ
  | trans {ρ σ τ υ : HostType} (hseen : SeenIn mask σ υ) (hpart : τ.ShownPart mask σ)
      (hsame : ρ.same τ = true) : SeenIn mask ρ υ

namespace Script

variable {P : Policy} {g h : Heap} {r : Ref} {i : Nat} {f : Field HostType} {n : Nat}
  {moves : List Move}

/-- A value that is shown in the run leads to this one. -/
def Move.Reach (moves : List Move) (h : Heap) (v : Ref) : Prop :=
  ∃ mask root, .expose mask root ∈ moves ∧ Relation.ReflTransGen h.Refers root v

/-- What is new may be known, and so may what the values lead to that are shown in a run. It may be
shown as these values are, and wherever its type is seen through theirs. -/
def Move.policy (h : Heap) (moves : List Move) : Policy where
  Knows v := h.cells.size ≤ v ∨ Move.Reach moves h v
  Shows r τ mask := (h.cells.size ≤ r ∨ Move.Reach moves h r) ∧ ∃ root, .expose mask root ∈ moves ∧
    ((r = root ∧ τ = h.typeOf root) ∨ τ.SeenIn mask (h.typeOf root))
  knows h := h.1
  part := by
    rintro r s τ σ ρ mask ⟨-, root, hroot, ⟨rfl, rfl⟩ | hseen⟩ hpart hsame hs
    · exact ⟨hs, r, hroot, .inr (.part hpart hsame)⟩
    · exact ⟨hs, root, hroot, .inr (.trans hseen hpart hsame)⟩

/-- If a value leads to the record that is shown in the run, then every mask hides the field under
which a value is shown that is the record or has a type through which the type of the record is
seen. -/
def Move.Hide (moves : List Move) (h : Heap) (r : Ref) (f : Field HostType) : Prop :=
  Move.Reach moves h r → ∀ mask root, .expose mask root ∈ moves →
    root = r ∨ (h.typeOf r).SeenIn mask (h.typeOf root) → mask.exposes f.attributes = false

theorem Move.Hide.hidden (hhide : Move.Hide moves h r f) (hr : r < h.cells.size) :
    Hidden ((Move.policy h moves).Shows r (h.typeOf r)) f := by
  rintro mask ⟨hknown, root, hroot, hseen⟩
  have hreach := hknown.resolve_left (Nat.not_le_of_lt hr)
  exact hhide hreach mask root hroot (hseen.imp (fun heq => heq.1.symm) id)

end Script

end HostView
