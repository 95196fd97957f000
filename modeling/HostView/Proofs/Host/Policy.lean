import HostView.Host.Heap
import HostView.Proofs.Host.SameType

/-! # Policies

A policy says which values scripts may know of, and which may be shown to them under which masks. Where
a value is shown, a script may ask it for its parts, which are then shown under the same mask, and it
may store other values of the same types in their place. So with a value a policy allows all values of
the types of its parts that may be known. It also says which values the host may hand over though
nothing leads to them.
-/

namespace HostView

/-- The first type is that of a part of the second which the mask shows: of a field that it exposes, of
yields or of items. -/
inductive HostType.ShownPart (mask : Mask) : HostType → HostType → Prop where
  | field {descriptor : Nat} {name : String} {fields : List (Field HostType)} {f : Field HostType}
      (hf : f ∈ fields) (hexposes : mask.exposes f.attributes = true) :
      ShownPart mask f.type (.record descriptor name fields)
  | yield {key : AtomType} {type : HostType} : ShownPart mask type (.table key (some type))
  | element {type : HostType} : ShownPart mask type (.vector type)

/-- Which values may be known, under which masks those of a type may be shown, and which values the
host may hand over: all of them, if nothing is said. -/
structure Policy where
  Knows : Ref → Prop
  Shows : Ref → HostType → Mask → Prop
  Lends : Ref → Prop := fun _ => True
  knows : ∀ {r : Ref} {τ : HostType} {mask : Mask}, Shows r τ mask → Knows r
  part : ∀ {r s : Ref} {τ σ ρ : HostType} {mask : Mask}, Shows r τ mask → σ.ShownPart mask τ →
    ρ.same σ = true → Knows s → Shows s ρ mask

namespace Policy

/-- Something may be shown under the mask. -/
def Allows (P : Policy) (mask : Mask) : Prop := ∃ r τ, P.Shows r τ mask

/-- Everything may be shown, under any of the masks. -/
def ofMasks (masks : Mask → Prop) : Policy where
  Knows _ := True
  Shows _ _ := masks
  knows _ := trivial
  part h _ _ _ := h

/-- Everything may be shown, and the host hands nothing over. -/
def unlending : Policy := { ofMasks fun _ => True with Lends := fun _ => False }

@[simp]
theorem allows_ofMasks {masks : Mask → Prop} {mask : Mask} :
    (ofMasks masks).Allows mask ↔ masks mask :=
  ⟨fun ⟨_, _, h⟩ => h, fun h => ⟨0, default, h⟩⟩

end Policy

end HostView
